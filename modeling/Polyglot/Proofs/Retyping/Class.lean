import Polyglot.Proofs.Retyping.Plain

/-!
# Other types in a function or a class

* `Signature.mapTypes`, `Class.mapTypes` : the replacement without the statements inside.
* `Signature.heldTypes`, `Class.heldTypes` : the types it reaches.
* `Signature.phpHead_mapTypes`, `Signature.imports_mapTypes` : a function in PHP.
* `Class.constructor_mapTypes` : the constructor that follows from the properties has the other
  types, too.
* `Class.phpConstructor_mapTypes`, `Class.phpProperty_mapTypes`, `Class.ownImports_mapTypes` : a
  class in PHP.
-/

set_option autoImplicit false

namespace Polyglot

open Outcome

/-! ## The replacement -/

def Param.mapTypes (f : Ty → Ty) (p : Param) : Param where
  name := p.name
  ty := f p.ty
  default := p.default.map (Expr.mapTypes f)

def Overload.mapTypes (f : Ty → Ty) (o : Overload) : Overload where
  changes := o.changes.map fun c => (c.1, c.2.map f)
  result := o.result.map f

/-- The signature with other types in it. -/
def Signature.mapTypes (f : Ty → Ty) (s : Signature) : Signature :=
  { s with
    result := s.result.map f
    positional := s.positional.map (Param.mapTypes f)
    keyword := s.keyword.map (Param.mapTypes f)
    overloads := s.overloads.map (Overload.mapTypes f) }

def Property.mapTypes (f : Ty → Ty) (p : Property) : Property :=
  { p with ty := f p.ty, default := p.default.map (Expr.mapTypes f) }

def Class.mapTypes (f : Ty → Ty) (c : Class) : Class :=
  { c with properties := c.properties.map (Property.mapTypes f) }

/-! ## The types that are replaced -/

def Param.heldTypes (p : Param) : List Ty := p.ty :: Expr.heldTypesOption p.default

def Overload.heldTypes (o : Overload) : List Ty :=
  (o.changes.flatMap fun c => c.2.toList) ++ o.result.toList

/-- The types that a signature holds. -/
def Signature.heldTypes (s : Signature) : List Ty :=
  s.params.flatMap Param.heldTypes ++ s.result.toList ++ s.overloads.flatMap Overload.heldTypes

/-- The types that a class holds outside its methods. -/
def Class.heldTypes (c : Class) : List Ty :=
  c.properties.flatMap fun p => p.ty :: Expr.heldTypesOption p.default

theorem Param.heldTypes_mapTypes (f : Ty → Ty) (p : Param) :
    (p.mapTypes f).heldTypes = p.heldTypes.map f := by
  rw [heldTypes, mapTypes, Expr.heldTypesOption_mapTypes, heldTypes, List.map_cons]

theorem Overload.heldTypes_mapTypes (f : Ty → Ty) (o : Overload) :
    (o.mapTypes f).heldTypes = o.heldTypes.map f := by
  simp [heldTypes, mapTypes, List.flatMap_map, List.map_flatMap, Option.toList_map]

/-- Every type of a signature is replaced. -/
theorem Signature.heldTypes_mapTypes (f : Ty → Ty) (s : Signature) :
    (s.mapTypes f).heldTypes = s.heldTypes.map f := by
  simp [heldTypes, params, mapTypes, List.flatMap_map, List.map_flatMap, Option.toList_map,
    Param.heldTypes_mapTypes, Overload.heldTypes_mapTypes]

/-- Every type of a class is replaced. -/
theorem Class.heldTypes_mapTypes (f : Ty → Ty) (c : Class) :
    (c.mapTypes f).heldTypes = c.heldTypes.map f := by
  simp [heldTypes, mapTypes, Property.mapTypes, List.flatMap_map, List.map_flatMap,
    Expr.heldTypesOption_mapTypes]

/-! ## Functions -/

theorem Param.toPhp_mapTypes {f : Ty → Ty} (hf : Ty.KeepsPhp f) (p : Param) :
    (p.mapTypes f).toPhp = p.toPhp := by
  simp [toPhp, mapTypes, hf.toPhp]

theorem Param.imports_mapTypes {f : Ty → Ty} (hf : Ty.KeepsPhp f) (p : Param) :
    (p.mapTypes f).imports .php = p.imports .php := by
  simp [imports, mapTypes, hf.imports, Expr.importsOption_mapTypes hf]

namespace Signature

theorem checkBody_mapTypes (f : Ty → Ty) (s : Signature) (isEmpty : Bool) :
    (s.mapTypes f).checkBody isEmpty = s.checkBody isEmpty := rfl

theorem bracedBody_mapTypes (f : Ty → Ty) (s : Signature) (inner : List Layout) :
    (s.mapTypes f).bracedBody inner = s.bracedBody inner := rfl

theorem phpResult_mapTypes {f : Ty → Ty} (hf : Ty.KeepsPhp f) (s : Signature) :
    (s.mapTypes f).phpResult = s.phpResult := by
  simp only [phpResult, mapTypes]
  cases s.result with
  | none => rfl
  | some ty => simp only [Option.map_some, hf.toPhp]

/-- PHP writes the head of a function the same. -/
theorem phpHead_mapTypes {f : Ty → Ty} (hf : Ty.KeepsPhp f) (s : Signature) :
    (s.mapTypes f).phpHead = s.phpHead := by
  have hcheck : (s.mapTypes f).checkPhp = s.checkPhp := by simp [checkPhp, mapTypes]
  have hparams : (s.mapTypes f).positional.mapM Param.toPhp = s.positional.mapM Param.toPhp :=
    mapM_map_of_eq (Param.toPhp_mapTypes hf) s.positional
  rw [phpHead, hcheck, hparams, phpResult_mapTypes hf, phpHead]
  rfl

/-- PHP needs the same imports for a function without its statements. -/
theorem imports_mapTypes {f : Ty → Ty} (hf : Ty.KeepsPhp f) (s : Signature) :
    (s.mapTypes f).imports .php = s.imports .php := by
  have hown : (s.mapTypes f).ownImports .php = s.ownImports .php := by
    simp [ownImports, params, mapTypes, List.flatMap_map, Param.imports_mapTypes hf,
      hf.importsOption]
  simp only [imports, hown]
  rfl

end Signature

/-! ## Classes -/

namespace Property

theorem literalDefault?_mapTypes (f : Ty → Ty) (p : Property) :
    (p.mapTypes f).literalDefault? = p.literalDefault?.map (Expr.mapTypes f) := by
  rw [literalDefault?, mapTypes, literalDefault?]
  cases p.default with
  | none => rfl
  | some e => cases e <;> rfl

theorem assignedDefault?_mapTypes (f : Ty → Ty) (t : Target) (p : Property) :
    (p.mapTypes f).assignedDefault? t = (p.assignedDefault? t).map (Expr.mapTypes f) := by
  obtain ⟨name, ty, default, initarg, observable, readonly⟩ := p
  cases initarg with
  | true => rfl
  | false =>
      cases t with
      | python => rfl
      | typescript | php =>
          cases default with
          | none => rfl
          | some e => cases e <;> rfl

theorem param_mapTypes (f : Ty → Ty) (p : Property) :
    (p.mapTypes f).param = p.param.map (Param.mapTypes f) := by
  rw [param, param, mapTypes]
  cases p.default with
  | none => rfl
  | some e => cases e <;> rfl

end Property

namespace Class

def Constructor.mapTypes (f : Ty → Ty) (k : Constructor) : Constructor where
  signature := k.signature.mapTypes f
  body := k.body.map (Plain.mapTypes f)

theorem initargs_mapTypes (f : Ty → Ty) (c : Class) :
    (c.mapTypes f).initargs = c.initargs.map (Property.mapTypes f) := by
  rw [initargs, mapTypes, List.filter_map, initargs]
  rfl

theorem storeDefault?_mapTypes (f : Ty → Ty) (t : Target) (p : Property) :
    storeDefault? t (p.mapTypes f) = (storeDefault? t p).map (Plain.mapTypes f) := by
  rw [storeDefault?, Property.assignedDefault?_mapTypes, storeDefault?]
  cases p.assignedDefault? t <;> rfl

/-- The constructor that PHP writes follows from the other types of the properties. -/
theorem constructor_mapTypes (f : Ty → Ty) (c : Class) :
    (c.mapTypes f).constructor .php =
      (c.constructor .php).map (Option.map (Constructor.mapTypes f)) := by
  have hdefaults : (c.mapTypes f).properties.filterMap (storeDefault? .php) =
      (c.properties.filterMap (storeDefault? .php)).map (Plain.mapTypes f) := by
    rw [mapTypes, List.filterMap_map, List.map_filterMap]
    exact List.filterMap_congr fun p _ => storeDefault?_mapTypes f .php p
  have harguments : (c.initargs.map (Property.mapTypes f)).map storeArgument =
      (c.initargs.map storeArgument).map (Plain.mapTypes f) := by
    rw [List.map_map, List.map_map]
    rfl
  have hparent : (c.mapTypes f).parentCall? .php = c.parentCall? .php := rfl
  rw [constructor, constructor, hdefaults, initargs_mapTypes, List.isEmpty_map, List.isEmpty_map,
    mapM_map_of_eq_map (Property.param_mapTypes f), harguments, hparent]
  split
  · rfl
  · cases c.initargs.mapM Property.param with
    | error e => rfl
    | ok params =>
        rw [Except.map, ok_bind, parentCall?]
        cases c.phpParent <;>
          simp [Except.map, pure, Except.pure, Constructor.mapTypes, Signature.mapTypes,
            Signature.constructor, Signature.method, Signature.function, forwardedParams,
            Plain.mapTypes]

theorem Constructor.toPhp_mapTypes {f : Ty → Ty} (hf : Ty.KeepsPhp f) (k : Constructor) :
    (k.mapTypes f).toPhp = k.toPhp := by
  rw [toPhp, mapTypes, Signature.phpHead_mapTypes hf, Plain.toPhpAll,
    mapM_map_of_eq (Plain.toPhp_mapTypes hf), toPhp, Plain.toPhpAll]
  rfl

/-- PHP writes the constructor of a class the same. -/
theorem phpConstructor_mapTypes {f : Ty → Ty} (hf : Ty.KeepsPhp f) (c : Class) :
    (c.mapTypes f).phpConstructor = c.phpConstructor := by
  rw [phpConstructor, constructor_mapTypes, phpConstructor]
  cases c.constructor .php with
  | error e => rfl
  | ok k =>
      cases k with
      | none => rfl
      | some k => simp [Except.map, Constructor.toPhp_mapTypes hf]

theorem phpProperty_mapTypes {f : Ty → Ty} (hf : Ty.KeepsPhp f) (p : Property) :
    phpProperty (p.mapTypes f) = phpProperty p := by
  rw [phpProperty, Property.literalDefault?_mapTypes, Expr.phpSuffix_mapTypes, Property.mapTypes,
    hf.phpVarComment, phpProperty]

theorem propertyImports_mapTypes {f : Ty → Ty} (hf : Ty.KeepsPhp f) (p : Property) :
    propertyImports .php (p.mapTypes f) = propertyImports .php p := by
  rw [propertyImports, Property.mapTypes, hf.imports, Expr.importsOption_mapTypes hf,
    propertyImports]

theorem Constructor.imports_mapTypes {f : Ty → Ty} (hf : Ty.KeepsPhp f) (k : Constructor) :
    (k.mapTypes f).imports .php = k.imports .php := by
  rw [imports, mapTypes, Signature.imports_mapTypes hf, List.flatMap_map, imports]
  simp only [Plain.imports_mapTypes hf]

/-- PHP needs the same imports for a class without its methods. -/
theorem ownImports_mapTypes {f : Ty → Ty} (hf : Ty.KeepsPhp f) (c : Class) :
    (c.mapTypes f).ownImports .php = c.ownImports .php := by
  have hproperties : (c.mapTypes f).properties.flatMap (propertyImports .php) =
      c.properties.flatMap (propertyImports .php) := by
    rw [mapTypes, List.flatMap_map]
    simp only [propertyImports_mapTypes hf]
  have hrequests : (c.mapTypes f).imports = c.imports := rfl
  rw [ownImports, constructor_mapTypes, hproperties, hrequests, ownImports]
  cases c.constructor .php with
  | error e => rfl
  | ok k =>
      cases k with
      | none => rfl
      | some k =>
          rw [Except.map, Option.map_some, ok_bind, ok_bind]
          simp only [Constructor.imports_mapTypes hf]
          rfl

end Class

end Polyglot
