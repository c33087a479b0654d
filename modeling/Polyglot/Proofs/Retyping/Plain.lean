import Polyglot.Proofs.Outcome
import Polyglot.Proofs.Retyping.Expr
import Polyglot.Proofs.Stmt.Return
import Polyglot.Stmt.Imports

/-!
# Other types in a statement without a body

* `Plain.mapTypes`, `Plain.heldTypes` : the replacement in a statement, and the types it reaches.
* `Plain.toPhp_mapTypes`, `Plain.imports_mapTypes` : what PHP writes and what it needs.
-/

set_option autoImplicit false

namespace Polyglot

open Outcome

/-! ## The replacement -/

def Report.mapTypes (f : Ty → Ty) : Report → Report
  | .text s => .text s
  | .value e => .value (e.mapTypes f)

/-- The raising of an exception with other types in it. -/
def Raise.mapTypes (f : Ty → Ty) (r : Raise) : Raise := { r with report := r.report.mapTypes f }

def Assignment.mapTypes (f : Ty → Ty) : Assignment → Assignment
  | .assign target value => .assign (target.mapTypes f) (value.mapTypes f)
  | .declare name ty value => .declare name (ty.map f) (value.map (Expr.mapTypes f))

def BuilderEntry.mapTypes (f : Ty → Ty) (e : BuilderEntry) : BuilderEntry :=
  { e with value := e.value.mapTypes f }

/-- The dict under construction with other types in it. -/
def DictBuilder.mapTypes (f : Ty → Ty) (b : DictBuilder) : DictBuilder where
  name := b.name
  valueType := f b.valueType
  entries := b.entries.map (BuilderEntry.mapTypes f)

def Interface.mapTypes (f : Ty → Ty) (i : Interface) : Interface :=
  { i with properties := i.properties.map fun p => (p.1, f p.2) }

/-- The statement without a body with other types in it. -/
def Plain.mapTypes (f : Ty → Ty) : Plain → Plain
  | .blank => .blank
  | .comment text => .comment text
  | .expr e => .expr (e.mapTypes f)
  | .snippet codes => .snippet codes
  | .raise r => .raise (r.mapTypes f)
  | .ret value => .ret (value.mapTypes f)
  | .assign a => .assign (a.mapTypes f)
  | .append list value => .append (list.mapTypes f) (value.mapTypes f)
  | .build b => .build (b.mapTypes f)
  | .interface i => .interface (i.mapTypes f)

/-! ## The types that are replaced -/

/-- The types that an expression holds, if there is one. -/
def Expr.heldTypesOption (e : Option Expr) : List Ty := e.toList.flatMap Expr.heldTypes

def Plain.heldTypes : Plain → List Ty
  | .blank | .comment _ | .snippet _ => []
  | .expr e | .ret e => e.heldTypes
  | .raise r =>
    match r.report with
    | .text _ => []
    | .value e => e.heldTypes
  | .assign (.assign target value) => target.heldTypes ++ value.heldTypes
  | .assign (.declare _ ty value) => ty.toList ++ Expr.heldTypesOption value
  | .append list value => list.heldTypes ++ value.heldTypes
  | .build b => b.valueType :: b.entries.flatMap fun e => e.value.heldTypes
  | .interface i => i.properties.map Prod.snd

theorem Expr.heldTypesOption_mapTypes (f : Ty → Ty) (e : Option Expr) :
    heldTypesOption (e.map (mapTypes f)) = (heldTypesOption e).map f := by
  cases e with
  | none => rfl
  | some e => simp [heldTypesOption, heldTypes_mapTypes]

/-- Every type of a statement without a body is replaced. -/
theorem Plain.heldTypes_mapTypes (f : Ty → Ty) (p : Plain) :
    (p.mapTypes f).heldTypes = p.heldTypes.map f := by
  cases p with
  | blank | comment | snippet => rfl
  | expr e | ret e => exact Expr.heldTypes_mapTypes f e
  | raise r =>
      obtain ⟨report, anyClass, classes⟩ := r
      cases report with
      | text s => rfl
      | value e => exact Expr.heldTypes_mapTypes f e
  | assign a =>
      cases a with
      | assign target value =>
          simp [mapTypes, Assignment.mapTypes, heldTypes, Expr.heldTypes_mapTypes]
      | declare name ty value =>
          cases ty <;>
            simp [mapTypes, Assignment.mapTypes, heldTypes, Expr.heldTypesOption_mapTypes]
  | append list value => simp [mapTypes, heldTypes, Expr.heldTypes_mapTypes]
  | build b =>
      simp [mapTypes, DictBuilder.mapTypes, BuilderEntry.mapTypes, heldTypes,
        Expr.heldTypes_mapTypes, List.flatMap_map, List.map_flatMap]
  | interface i => simp [mapTypes, Interface.mapTypes, heldTypes]

/-! ## PHP -/

theorem Ty.KeepsPhp.phpVarComment {f : Ty → Ty} (hf : KeepsPhp f) (ty : Ty) :
    (f ty).phpVarComment = ty.phpVarComment := by
  rw [Ty.phpVarComment, hf.toPhp, Ty.phpVarComment]

@[simp] theorem Expr.phpSuffix_mapTypes (f : Ty → Ty) (separator : String) (e : Option Expr) :
    phpSuffix separator (e.map (mapTypes f)) = phpSuffix separator e := by
  cases e with
  | none => rfl
  | some e => simp [phpSuffix]

@[simp] theorem Expr.isOmit_mapTypes (f : Ty → Ty) (e : Expr) :
    (e.mapTypes f).isOmit = e.isOmit := by
  cases e <;> rfl

theorem Report.toPhp_mapTypes (f : Ty → Ty) (r : Report) : (r.mapTypes f).toPhp = r.toPhp := by
  cases r with
  | text s => rfl
  | value e => exact Expr.phpText_mapTypes f e

theorem Assignment.toPhp_mapTypes {f : Ty → Ty} (hf : Ty.KeepsPhp f) (a : Assignment) :
    (a.mapTypes f).toPhp = a.toPhp := by
  cases a with
  | assign target value => simp [mapTypes, toPhp]
  | declare name ty value =>
      cases ty <;> cases value <;> simp [mapTypes, toPhp, hf.phpVarComment]

theorem BuilderEntry.phpPair_mapTypes (f : Ty → Ty) (e : BuilderEntry) :
    (e.mapTypes f).phpPair = e.phpPair := by
  simp [phpPair, mapTypes]

/-- The type of a dict under construction is written with the replacement inside it. -/
theorem DictBuilder.phpVarComment_mapTypes {f : Ty → Ty} (hf : Ty.KeepsPhp f) (b : DictBuilder) :
    (b.mapTypes f).ty.phpVarComment = b.ty.phpVarComment := by
  have hty : (b.mapTypes f).ty.toPhp = b.ty.toPhp := by
    rw [ty, mapTypes, Ty.toPhp, hf.toPhp, ty, Ty.toPhp]
  rw [Ty.phpVarComment, hty, Ty.phpVarComment]

theorem DictBuilder.toPhp_mapTypes {f : Ty → Ty} (hf : Ty.KeepsPhp f) (b : DictBuilder) :
    (b.mapTypes f).toPhp = b.toPhp := by
  have hguarded : (b.mapTypes f).guarded = b.guarded.map (BuilderEntry.mapTypes f) := by
    rw [guarded, mapTypes, List.filter_map]
    rfl
  rw [toPhp, hguarded, phpVarComment_mapTypes hf, List.isEmpty_map]
  rw [mapTypes, mapM_map_of_eq (BuilderEntry.phpPair_mapTypes f), toPhp]

theorem Interface.toPhp_mapTypes (f : Ty → Ty) (i : Interface) :
    (i.mapTypes f).toPhp = i.toPhp := by
  simp [toPhp, mapTypes]

/-- PHP writes a statement without a body the same. -/
theorem Plain.toPhp_mapTypes {f : Ty → Ty} (hf : Ty.KeepsPhp f) (p : Plain) :
    (p.mapTypes f).toPhp = p.toPhp := by
  cases p with
  | blank | comment | snippet => rfl
  | expr e => simp [mapTypes, toPhp]
  | raise r =>
      have hclass : (r.mapTypes f).classFor .php = r.classFor .php := rfl
      rw [mapTypes, toPhp, hclass, Raise.mapTypes, Report.toPhp_mapTypes, toPhp]
  | ret value =>
      cases h : value.isOmit with
      | true =>
          rw [Expr.eq_omit_of_isOmit h]
          rfl
      | false =>
          have h' : (value.mapTypes f).isOmit = false := by rw [Expr.isOmit_mapTypes, h]
          rw [mapTypes, toPhp_ret h', toPhp_ret h, Expr.phpText_mapTypes]
  | assign a => exact Assignment.toPhp_mapTypes hf a
  | append list value => simp [mapTypes, toPhp, Expr.toPhp_mapTypes]
  | build b => exact DictBuilder.toPhp_mapTypes hf b
  | interface i => exact Interface.toPhp_mapTypes f i

/-! ## Imports -/

@[simp] theorem Expr.importsOption_mapTypes {f : Ty → Ty} (hf : Ty.KeepsPhp f) (e : Option Expr) :
    importsOption .php (e.map (mapTypes f)) = importsOption .php e := by
  cases e with
  | none => rfl
  | some e => exact imports_mapTypes hf e

theorem Ty.KeepsPhp.importsOption {f : Ty → Ty} (hf : KeepsPhp f) (ty : Option Ty) :
    Ty.importsOption .php (ty.map f) = Ty.importsOption .php ty := by
  cases ty with
  | none => rfl
  | some ty => exact hf.imports ty

/-- PHP needs the same imports for a statement without a body. -/
theorem Plain.imports_mapTypes {f : Ty → Ty} (hf : Ty.KeepsPhp f) (p : Plain) :
    (p.mapTypes f).imports .php = p.imports .php := by
  cases p with
  | blank | comment | snippet => rfl
  | expr e | ret e => exact Expr.imports_mapTypes hf e
  | raise r =>
      obtain ⟨report, anyClass, classes⟩ := r
      cases report with
      | text s => rfl
      | value e => exact Expr.imports_mapTypes hf e
  | assign a =>
      cases a <;>
        simp [mapTypes, Assignment.mapTypes, imports, Assignment.imports,
          Expr.imports_mapTypes hf, Expr.importsOption_mapTypes hf, hf.importsOption]
  | append list value => simp [mapTypes, imports, Expr.imports_mapTypes hf]
  | build b =>
      simp [mapTypes, DictBuilder.mapTypes, BuilderEntry.mapTypes, imports, DictBuilder.imports,
        hf.imports, Expr.imports_mapTypes hf, List.flatMap_map]
  | interface i => simp [mapTypes, Interface.mapTypes, imports, hf.imports, List.flatMap_map]

end Polyglot
