import Polyglot.Proofs.Isolation.Function

/-!
# What a language sees of a class

Parents, decorations and the way in which properties are declared are for one language each; a
language sees only its own, and the constructor that follows from the properties depends on no
other.

* `Class.seenBy` : what is left when everything for other languages is blanked.
* `Class.constructor_seenBy` : the constructor of what is left is what is left of the constructor.
* `Class.pythonConstructor_seenBy`, `Class.typeScriptConstructor_seenBy`,
  `Class.phpConstructor_seenBy` : it is written the same, or fails with the same error.
* `Class.ownImports_seenBy` : it needs the same imports.
-/

set_option autoImplicit false

namespace Polyglot

open Outcome

/-- What one language sees of a property; TypeScript alone observes and protects properties. -/
def Property.seenBy (t : Target) (p : Property) : Property where
  name := p.name
  ty := p.ty.seenBy t
  default := p.default.map (Expr.seenBy t)
  initarg := p.initarg
  observable := if t = .typescript then p.observable else false
  readonly := if t = .typescript then p.readonly else false

namespace Class

/-- What one language sees of a class. -/
def seenBy (t : Target) (c : Class) : Class where
  name := c.name
  docstring := c.docstring
  isAbstract := c.isAbstract
  isDataclass := if t = .python then c.isDataclass else false
  isExported := if t = .typescript then c.isExported else false
  pythonBases := if t = .python then c.pythonBases else []
  forwardsArgs := if t = .python then c.forwardsArgs else false
  typeScriptParent := if t = .typescript then c.typeScriptParent else none
  phpParent := if t = .php then c.phpParent else none
  properties := c.properties.map (Property.seenBy t)
  remarks := c.remarks
  imports := c.imports.seenBy t

def Constructor.seenBy (t : Target) (k : Constructor) : Constructor where
  signature := k.signature.seenBy t
  body := k.body.map (Plain.seenBy t)

end Class

/-! ## Constructors -/

theorem Signature.constructor_seenBy (t : Target) (params : List Param) :
    Signature.constructor (params.map (Param.seenBy t)) =
      (Signature.constructor params).seenBy t := by
  cases t <;> rfl

theorem Expr.isLiteral_seenBy (t : Target) (e : Expr) : (e.seenBy t).isLiteral = e.isLiteral := by
  cases e <;> rfl

namespace Property

theorem literalDefault?_seenBy (t : Target) (p : Property) :
    (p.seenBy t).literalDefault? = p.literalDefault?.map (Expr.seenBy t) := by
  rw [literalDefault?, seenBy, literalDefault?]
  cases p.default with
  | none => rfl
  | some e =>
      rw [Option.map_some, Option.filter_some, Option.filter_some, Expr.isLiteral_seenBy]
      cases e.isLiteral <;> rfl

theorem assignedDefault?_seenBy (t : Target) (p : Property) :
    (p.seenBy t).assignedDefault? t = (p.assignedDefault? t).map (Expr.seenBy t) := by
  obtain ⟨name, ty, default, initarg, observable, readonly⟩ := p
  cases initarg with
  | true => cases t <;> rfl
  | false =>
      cases default with
      | none => cases t <;> rfl
      | some e =>
          cases t with
          | python => rfl
          | typescript | php =>
              simp only [assignedDefault?, seenBy, Bool.false_eq_true, if_false, Option.map_some,
                Option.filter_some, Expr.isLiteral_seenBy]
              cases e.isLiteral <;> rfl

theorem param_seenBy (t : Target) (p : Property) :
    (p.seenBy t).param = p.param.map (Param.seenBy t) := by
  rw [param, param, seenBy]
  cases p.default with
  | none => rfl
  | some e => cases e <;> rfl

end Property

namespace Class

theorem initargs_seenBy (t : Target) (c : Class) :
    (c.seenBy t).initargs = c.initargs.map (Property.seenBy t) := by
  rw [initargs, seenBy, List.filter_map, initargs]
  rfl

theorem storeDefault?_seenBy (t : Target) (p : Property) :
    storeDefault? t (p.seenBy t) = (storeDefault? t p).map (Plain.seenBy t) := by
  rw [storeDefault?, Property.assignedDefault?_seenBy, storeDefault?]
  cases p.assignedDefault? t <;> rfl

theorem parentCall?_seenBy (t : Target) (c : Class) :
    (c.seenBy t).parentCall? t = (c.parentCall? t).map (Plain.seenBy t) := by
  cases t with
  | python =>
      rw [parentCall?, parentCall?]
      show (if c.pythonBases.isEmpty = true then none else _) = _
      cases c.pythonBases.isEmpty with
      | true => rfl
      | false => rfl
  | typescript =>
      show (c.typeScriptParent.map _) = _
      rw [parentCall?]
      cases c.typeScriptParent <;> rfl
  | php =>
      show (c.phpParent.map _) = _
      rw [parentCall?]
      cases c.phpParent <;> rfl

theorem forwardedParams_seenBy (t : Target) (c : Class) :
    (c.seenBy t).forwardedParams t = (c.forwardedParams t).map (Param.seenBy t) := by
  cases t with
  | python =>
      rw [forwardedParams, forwardedParams]
      show (if (c.forwardsArgs && !c.pythonBases.isEmpty) = true then _ else _) = _
      cases c.forwardsArgs && !c.pythonBases.isEmpty <;> rfl
  | typescript | php => rfl

/-- The constructor of what a language sees is what it sees of the constructor. -/
theorem constructor_seenBy (t : Target) (c : Class) :
    (c.seenBy t).constructor t = (c.constructor t).map (Option.map (Constructor.seenBy t)) := by
  have hdefaults : (c.seenBy t).properties.filterMap (storeDefault? t) =
      (c.properties.filterMap (storeDefault? t)).map (Plain.seenBy t) := by
    rw [seenBy, List.filterMap_map, List.map_filterMap]
    exact List.filterMap_congr fun p _ => storeDefault?_seenBy t p
  have harguments : (c.initargs.map (Property.seenBy t)).map storeArgument =
      (c.initargs.map storeArgument).map (Plain.seenBy t) := by
    rw [List.map_map, List.map_map]
    rfl
  rw [constructor, constructor, hdefaults, initargs_seenBy, List.isEmpty_map, List.isEmpty_map,
    mapM_map_of_eq_map (Property.param_seenBy t), harguments, parentCall?_seenBy,
    forwardedParams_seenBy]
  split
  · rfl
  · cases c.initargs.mapM Property.param with
    | error e => rfl
    | ok params =>
        rw [Except.map, ok_bind, ← List.map_append, Signature.constructor_seenBy]
        cases c.parentCall? t <;> cases t <;>
          simp [Except.map, pure, Except.pure, Constructor.seenBy]

/-! The parts of what a language sees. -/

variable (t : Target) (c : Class)

@[simp] theorem seenBy_docstring : (c.seenBy t).docstring = c.docstring := rfl

@[simp] theorem seenBy_properties :
    (c.seenBy t).properties = c.properties.map (Property.seenBy t) := rfl

@[simp] theorem seenBy_remarks : (c.seenBy t).remarks = c.remarks := rfl

end Class

/-! ## Python -/

theorem Plain.hasCode_seenBy (p : Plain) : (p.seenBy .python).hasCode = p.hasCode := by
  cases p with
  | snippet codes =>
      obtain ⟨python, typescript, php⟩ := codes
      cases python <;> rfl
  | _ => rfl

namespace Class

theorem Constructor.toPython_seenBy (k : Constructor) :
    (k.seenBy .python).toPython = k.toPython := by
  rw [toPython, seenBy, Signature.pythonHead_seenBy, Plain.toPythonAll,
    mapM_map_of_eq Plain.toPython_seenBy, toPython, Plain.toPythonAll]
  simp only [List.any_map, Function.comp_def, Plain.hasCode_seenBy, Signature.pythonSuite_seenBy]

theorem pythonConstructor_seenBy (c : Class) :
    (c.seenBy .python).pythonConstructor = c.pythonConstructor := by
  rw [pythonConstructor, constructor_seenBy, pythonConstructor]
  cases c.constructor .python with
  | error e => rfl
  | ok k =>
      cases k with
      | none => rfl
      | some k => exact Constructor.toPython_seenBy k

theorem pythonHead_seenBy (c : Class) : (c.seenBy .python).pythonHead = c.pythonHead := rfl

theorem pythonProperties_seenBy (c : Class) :
    (c.seenBy .python).pythonProperties = c.pythonProperties := by
  rw [pythonProperties, seenBy_properties, mapM_map_of_eq, pythonProperties]
  intro p
  simp [Property.seenBy]

end Class

/-! ## TypeScript -/

namespace Class

theorem Constructor.toTypeScript_seenBy (k : Constructor) :
    (k.seenBy .typescript).toTypeScript = k.toTypeScript := by
  rw [toTypeScript, seenBy, Signature.typeScriptHead_seenBy, Plain.toTypeScriptAll,
    mapM_map_of_eq Plain.toTypeScript_seenBy, toTypeScript, Plain.toTypeScriptAll]
  rfl

theorem typeScriptConstructor_seenBy (c : Class) :
    (c.seenBy .typescript).typeScriptConstructor = c.typeScriptConstructor := by
  rw [typeScriptConstructor, constructor_seenBy, typeScriptConstructor]
  cases c.constructor .typescript with
  | error e => rfl
  | ok k =>
      cases k with
      | none => rfl
      | some k =>
          show (do
            let lines ← (k.seenBy .typescript).toTypeScript
            return [lines]) = _
          rw [Constructor.toTypeScript_seenBy]
          rfl

theorem typeScriptHead_seenBy (c : Class) :
    (c.seenBy .typescript).typeScriptHead = c.typeScriptHead := rfl

theorem typeScriptProperty_seenBy (p : Property) :
    typeScriptProperty (p.seenBy .typescript) = typeScriptProperty p := by
  rw [typeScriptProperty, Property.literalDefault?_seenBy, Expr.typeScriptSuffix_seenBy,
    Property.seenBy, Ty.typeScriptText_seenBy, typeScriptProperty]
  rfl

end Class

/-! ## PHP -/

namespace Class

theorem Constructor.toPhp_seenBy (k : Constructor) : (k.seenBy .php).toPhp = k.toPhp := by
  rw [toPhp, seenBy, Signature.phpHead_seenBy, Plain.toPhpAll,
    mapM_map_of_eq Plain.toPhp_seenBy, toPhp, Plain.toPhpAll]
  rfl

theorem phpConstructor_seenBy (c : Class) :
    (c.seenBy .php).phpConstructor = c.phpConstructor := by
  rw [phpConstructor, constructor_seenBy, phpConstructor]
  cases c.constructor .php with
  | error e => rfl
  | ok k =>
      cases k with
      | none => rfl
      | some k =>
          show (do
            let lines ← (k.seenBy .php).toPhp
            return [lines]) = _
          rw [Constructor.toPhp_seenBy]
          rfl

theorem phpHead_seenBy (c : Class) : (c.seenBy .php).phpHead = c.phpHead := rfl

theorem phpProperty_seenBy (p : Property) : phpProperty (p.seenBy .php) = phpProperty p := by
  rw [phpProperty, Property.literalDefault?_seenBy, Expr.phpSuffix_seenBy, Property.seenBy,
    Ty.phpVarComment_seenBy, phpProperty]

end Class

/-! ## Imports -/

namespace Class

theorem propertyImports_seenBy (t : Target) (p : Property) :
    propertyImports t (p.seenBy t) = propertyImports t p := by
  rw [propertyImports, Property.seenBy, Ty.imports_seenBy, Expr.importsOption_seenBy,
    propertyImports]

theorem decorationImports_seenBy (t : Target) (c : Class) :
    (c.seenBy t).decorationImports t = c.decorationImports t := by
  cases t with
  | python | php => rfl
  | typescript =>
      rw [decorationImports, seenBy_properties, List.any_map, decorationImports]
      rfl

theorem Constructor.imports_seenBy (t : Target) (k : Constructor) :
    (k.seenBy t).imports t = k.imports t := by
  rw [imports, seenBy, Signature.imports_seenBy, List.flatMap_map, imports]
  simp only [Plain.imports_seenBy]

/-- What a language sees of a class needs the same imports. -/
theorem ownImports_seenBy (t : Target) (c : Class) :
    (c.seenBy t).ownImports t = c.ownImports t := by
  have hproperties : (c.properties.map (Property.seenBy t)).flatMap (propertyImports t) =
      c.properties.flatMap (propertyImports t) := by
    simp only [List.flatMap_map, propertyImports_seenBy]
  have hrequests : (c.seenBy t).imports.for t = c.imports.for t :=
    Requests.for_seenBy c.imports t
  rw [ownImports, constructor_seenBy, decorationImports_seenBy, seenBy_properties, hproperties,
    hrequests, ownImports]
  cases c.constructor t with
  | error e => rfl
  | ok k =>
      cases k with
      | none => rfl
      | some k =>
          rw [Except.map, Option.map_some, ok_bind, ok_bind]
          simp only [Constructor.imports_seenBy]

end Class

end Polyglot
