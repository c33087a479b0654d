import Polyglot.Proofs.Isolation.Expr
import Polyglot.Proofs.Outcome
import Polyglot.Proofs.Stmt.Return
import Polyglot.Stmt.Imports

/-!
# What a language sees of a statement without a body

* `Plain.seenBy` : what is left when everything for other languages is blanked.
* `Plain.toPython_seenBy`, `Plain.toTypeScript_seenBy`, `Plain.toPhp_seenBy` : it is written the
  same, or fails with the same error.
* `Plain.imports_seenBy` : it needs the same imports.
-/

set_option autoImplicit false

namespace Polyglot

open Outcome

/-! ## What is left -/

def Report.seenBy (t : Target) : Report → Report
  | .text s => .text s
  | .value e => .value (e.seenBy t)

def Raise.seenBy (t : Target) (r : Raise) : Raise where
  report := r.report.seenBy t
  anyClass := r.anyClass
  classes := r.classes.seenBy none t

def Assignment.seenBy (t : Target) : Assignment → Assignment
  | .assign target value => .assign (target.seenBy t) (value.seenBy t)
  | .declare name ty value => .declare name (ty.map (Ty.seenBy t)) (value.map (Expr.seenBy t))

def BuilderEntry.seenBy (t : Target) (e : BuilderEntry) : BuilderEntry :=
  { e with value := e.value.seenBy t }

def DictBuilder.seenBy (t : Target) (b : DictBuilder) : DictBuilder where
  name := b.name
  valueType := b.valueType.seenBy t
  entries := b.entries.map (BuilderEntry.seenBy t)

/-- What one language sees of an interface; only TypeScript sees whether it is exported. -/
def Interface.seenBy (t : Target) (i : Interface) : Interface where
  name := i.name
  isExported := if t = .typescript then i.isExported else false
  properties := i.properties.map fun p => (p.1, p.2.seenBy t)

/-- What one language sees of a statement without a body. Code for another language looks as if it
was left out on purpose. -/
def Plain.seenBy (t : Target) : Plain → Plain
  | .blank => .blank
  | .comment text => .comment text
  | .expr e => .expr (e.seenBy t)
  | .snippet codes => .snippet (codes.seenBy .omitted t)
  | .raise r => .raise (r.seenBy t)
  | .ret value => .ret (value.seenBy t)
  | .assign a => .assign (a.seenBy t)
  | .append list value => .append (list.seenBy t) (value.seenBy t)
  | .build b => .build (b.seenBy t)
  | .interface i => .interface (i.seenBy t)

@[simp] theorem Raise.classFor_seenBy (t : Target) (r : Raise) :
    (r.seenBy t).classFor t = r.classFor t := by
  rw [classFor, seenBy, PerTarget.get_seenBy, classFor]

theorem DictBuilder.fixed_seenBy (t : Target) (b : DictBuilder) :
    (b.seenBy t).fixed = b.fixed.map (BuilderEntry.seenBy t) := by
  rw [fixed, seenBy, List.filter_map]
  rfl

theorem DictBuilder.guarded_seenBy (t : Target) (b : DictBuilder) :
    (b.seenBy t).guarded = b.guarded.map (BuilderEntry.seenBy t) := by
  rw [guarded, seenBy, List.filter_map]
  rfl

theorem DictBuilder.ty_seenBy (t : Target) (b : DictBuilder) : (b.seenBy t).ty = b.ty.seenBy t :=
  rfl

@[simp] theorem Expr.isOmit_seenBy (t : Target) (e : Expr) : (e.seenBy t).isOmit = e.isOmit := by
  cases e <;> rfl

/-! ## Python -/

@[simp] theorem Expr.toPython_seenBy (e : Expr) :
    (e.seenBy .python).toPython = e.toPython :=
  render_seenBy .python e

@[simp] theorem Expr.pythonText_seenBy (e : Expr) :
    (e.seenBy .python).pythonText = e.pythonText := by
  rw [pythonText, toPython_seenBy, pythonText]

@[simp] theorem Expr.pythonSuffix_seenBy (separator : String) (e : Option Expr) :
    pythonSuffix separator (e.map (seenBy .python)) = pythonSuffix separator e := by
  cases e with
  | none => rfl
  | some e => simp [pythonSuffix]

@[simp] theorem Ty.pythonSuffix_seenBy (separator : String) (ty : Option Ty) :
    pythonSuffix separator (ty.map (seenBy .python)) = pythonSuffix separator ty := by
  cases ty with
  | none => rfl
  | some ty => simp [pythonSuffix]

theorem Report.toPython_seenBy (r : Report) : (r.seenBy .python).toPython = r.toPython := by
  cases r with
  | text s => rfl
  | value e => simp [seenBy, toPython]

theorem Assignment.toPython_seenBy (a : Assignment) :
    (a.seenBy .python).toPython = a.toPython := by
  cases a with
  | assign target value => simp [seenBy, toPython]
  | declare name ty value => simp [seenBy, toPython]

theorem BuilderEntry.pythonPair_seenBy (e : BuilderEntry) :
    (e.seenBy .python).pythonPair = e.pythonPair := by
  simp [pythonPair, seenBy]

theorem BuilderEntry.pythonGuard_seenBy (name : String) (e : BuilderEntry) :
    (e.seenBy .python).pythonGuard name = e.pythonGuard name := by
  have htest := Expr.pythonText_seenBy (.supplied e.value)
  rw [Expr.seenBy] at htest
  simp [pythonGuard, seenBy, htest]

theorem DictBuilder.toPython_seenBy (b : DictBuilder) :
    (b.seenBy .python).toPython = b.toPython := by
  rw [toPython, fixed_seenBy, guarded_seenBy, ty_seenBy, Ty.pythonText_seenBy,
    mapM_map_of_eq BuilderEntry.pythonPair_seenBy,
    mapM_map_of_eq (BuilderEntry.pythonGuard_seenBy _), toPython]
  rfl

/-- A statement without a body is written from what Python sees of it. -/
theorem Plain.toPython_seenBy (p : Plain) : (p.seenBy .python).toPython = p.toPython := by
  cases p with
  | blank | comment | snippet | interface => rfl
  | expr e => simp [seenBy, toPython]
  | raise r =>
      rw [seenBy, toPython, Raise.classFor_seenBy, Raise.seenBy, Report.toPython_seenBy, toPython]
  | ret value =>
      cases h : value.isOmit with
      | true =>
          rw [Expr.eq_omit_of_isOmit h]
          rfl
      | false =>
          have h' : (value.seenBy .python).isOmit = false := by rw [Expr.isOmit_seenBy, h]
          rw [seenBy, toPython_ret h', toPython_ret h, Expr.pythonText_seenBy]
  | assign a => exact Assignment.toPython_seenBy a
  | append list value => simp [seenBy, toPython]
  | build b => exact DictBuilder.toPython_seenBy b

/-! ## TypeScript -/

@[simp] theorem Expr.toTypeScript_seenBy (e : Expr) :
    (e.seenBy .typescript).toTypeScript = e.toTypeScript :=
  render_seenBy .typescript e

@[simp] theorem Expr.typeScriptText_seenBy (e : Expr) :
    (e.seenBy .typescript).typeScriptText = e.typeScriptText := by
  rw [typeScriptText, toTypeScript_seenBy, typeScriptText]

@[simp] theorem Expr.typeScriptSuffix_seenBy (separator : String) (e : Option Expr) :
    typeScriptSuffix separator (e.map (seenBy .typescript)) = typeScriptSuffix separator e := by
  cases e with
  | none => rfl
  | some e => simp [typeScriptSuffix]

@[simp] theorem Ty.typeScriptSuffix_seenBy (separator : String) (ty : Option Ty) :
    typeScriptSuffix separator (ty.map (seenBy .typescript)) = typeScriptSuffix separator ty := by
  cases ty with
  | none => rfl
  | some ty => simp [typeScriptSuffix]

theorem Report.toTypeScript_seenBy (r : Report) :
    (r.seenBy .typescript).toTypeScript = r.toTypeScript := by
  cases r with
  | text s => rfl
  | value e => simp [seenBy, toTypeScript]

theorem Assignment.toTypeScript_seenBy (a : Assignment) :
    (a.seenBy .typescript).toTypeScript = a.toTypeScript := by
  cases a with
  | assign target value => simp [seenBy, toTypeScript]
  | declare name ty value => simp [seenBy, toTypeScript]

theorem BuilderEntry.typeScriptPair_seenBy (e : BuilderEntry) :
    (e.seenBy .typescript).typeScriptPair = e.typeScriptPair := by
  simp [typeScriptPair, seenBy]

theorem BuilderEntry.typeScriptGuard_seenBy (name : String) (e : BuilderEntry) :
    (e.seenBy .typescript).typeScriptGuard name = e.typeScriptGuard name := by
  have htest := Expr.typeScriptText_seenBy (.supplied e.value)
  rw [Expr.seenBy] at htest
  simp [typeScriptGuard, seenBy, htest]

theorem DictBuilder.toTypeScript_seenBy (b : DictBuilder) :
    (b.seenBy .typescript).toTypeScript = b.toTypeScript := by
  rw [toTypeScript, fixed_seenBy, guarded_seenBy, ty_seenBy, Ty.typeScriptText_seenBy,
    mapM_map_of_eq BuilderEntry.typeScriptPair_seenBy,
    mapM_map_of_eq (BuilderEntry.typeScriptGuard_seenBy _), toTypeScript]
  rfl

theorem Interface.toTypeScript_seenBy (i : Interface) :
    (i.seenBy .typescript).toTypeScript = i.toTypeScript := by
  simp [toTypeScript, seenBy, Function.comp_def]

/-- A statement without a body is written from what TypeScript sees of it. -/
theorem Plain.toTypeScript_seenBy (p : Plain) :
    (p.seenBy .typescript).toTypeScript = p.toTypeScript := by
  cases p with
  | blank | comment | snippet => rfl
  | expr e => simp [seenBy, toTypeScript]
  | raise r =>
      rw [seenBy, toTypeScript, Raise.classFor_seenBy, Raise.seenBy, Report.toTypeScript_seenBy,
        toTypeScript]
  | ret value =>
      cases h : value.isOmit with
      | true =>
          rw [Expr.eq_omit_of_isOmit h]
          rfl
      | false =>
          have h' : (value.seenBy .typescript).isOmit = false := by rw [Expr.isOmit_seenBy, h]
          rw [seenBy, toTypeScript_ret h', toTypeScript_ret h, Expr.typeScriptText_seenBy]
  | assign a => exact Assignment.toTypeScript_seenBy a
  | append list value => simp [seenBy, toTypeScript]
  | build b => exact DictBuilder.toTypeScript_seenBy b
  | interface i => exact Interface.toTypeScript_seenBy i

/-! ## PHP -/

@[simp] theorem Expr.toPhp_seenBy (e : Expr) :
    (e.seenBy .php).toPhp = e.toPhp :=
  render_seenBy .php e

@[simp] theorem Expr.phpText_seenBy (e : Expr) :
    (e.seenBy .php).phpText = e.phpText := by
  rw [phpText, toPhp_seenBy, phpText]

@[simp] theorem Expr.phpSuffix_seenBy (separator : String) (e : Option Expr) :
    phpSuffix separator (e.map (seenBy .php)) = phpSuffix separator e := by
  cases e with
  | none => rfl
  | some e => simp [phpSuffix]

theorem Report.toPhp_seenBy (r : Report) : (r.seenBy .php).toPhp = r.toPhp := by
  cases r with
  | text s => rfl
  | value e => simp [seenBy, toPhp]

theorem Assignment.toPhp_seenBy (a : Assignment) :
    (a.seenBy .php).toPhp = a.toPhp := by
  cases a with
  | assign target value => simp [seenBy, toPhp]
  | declare name ty value => cases ty <;> cases value <;> simp [seenBy, toPhp]

theorem BuilderEntry.phpPair_seenBy (e : BuilderEntry) :
    (e.seenBy .php).phpPair = e.phpPair := by
  simp [phpPair, seenBy]

theorem DictBuilder.toPhp_seenBy (b : DictBuilder) : (b.seenBy .php).toPhp = b.toPhp := by
  rw [toPhp, guarded_seenBy, ty_seenBy, Ty.phpVarComment_seenBy, List.isEmpty_map]
  rw [seenBy, mapM_map_of_eq BuilderEntry.phpPair_seenBy, toPhp]

theorem Interface.toPhp_seenBy (i : Interface) : (i.seenBy .php).toPhp = i.toPhp := by
  simp [toPhp, seenBy]

/-- A statement without a body is written from what PHP sees of it. -/
theorem Plain.toPhp_seenBy (p : Plain) : (p.seenBy .php).toPhp = p.toPhp := by
  cases p with
  | blank | comment | snippet => rfl
  | expr e => simp [seenBy, toPhp]
  | raise r => rw [seenBy, toPhp, Raise.classFor_seenBy, Raise.seenBy, Report.toPhp_seenBy, toPhp]
  | ret value =>
      cases h : value.isOmit with
      | true =>
          rw [Expr.eq_omit_of_isOmit h]
          rfl
      | false =>
          have h' : (value.seenBy .php).isOmit = false := by rw [Expr.isOmit_seenBy, h]
          rw [seenBy, toPhp_ret h', toPhp_ret h, Expr.phpText_seenBy]
  | assign a => exact Assignment.toPhp_seenBy a
  | append list value => simp [seenBy, toPhp]
  | build b => exact DictBuilder.toPhp_seenBy b
  | interface i => exact Interface.toPhp_seenBy i

/-! ## Imports -/

@[simp] theorem Expr.importsOption_seenBy (t : Target) (e : Option Expr) :
    importsOption t (e.map (seenBy t)) = importsOption t e := by
  cases e with
  | none => rfl
  | some e => exact imports_seenBy t e

@[simp] theorem Ty.importsOption_seenBy (t : Target) (ty : Option Ty) :
    importsOption t (ty.map (seenBy t)) = importsOption t ty := by
  cases ty with
  | none => rfl
  | some ty => exact imports_seenBy t ty

/-- What a language sees of a statement without a body needs the same imports. -/
theorem Plain.imports_seenBy (t : Target) (p : Plain) : (p.seenBy t).imports t = p.imports t := by
  cases p with
  | blank | comment | snippet => rfl
  | expr e | ret e => exact Expr.imports_seenBy t e
  | raise r =>
      obtain ⟨report, anyClass, classes⟩ := r
      cases report with
      | text s => rfl
      | value e => exact Expr.imports_seenBy t e
  | assign a =>
      cases a <;> simp [seenBy, Assignment.seenBy, imports, Assignment.imports, Expr.imports_seenBy]
  | append list value => simp [seenBy, imports, Expr.imports_seenBy]
  | build b =>
      simp [seenBy, DictBuilder.seenBy, BuilderEntry.seenBy, imports, DictBuilder.imports,
        Ty.imports_seenBy, Expr.imports_seenBy, List.flatMap_map]
  | interface i =>
      simp [seenBy, Interface.seenBy, imports, Ty.imports_seenBy, List.flatMap_map]

end Polyglot
