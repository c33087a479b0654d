import Polyglot.Expr.Imports
import Polyglot.Expr.Typing
import Polyglot.Proofs.Expr.Lists
import Polyglot.Proofs.Expr.Negation
import Polyglot.Proofs.Isolation.Ty

/-!
# What a language sees of an expression

The code that an expression holds for another language is blanked, at any depth. That such code is
there stays visible where asking for it is an error of its own.

* `Expr.seenBy` : what is left.
* `Expr.render_seenBy` : it is written the same, or fails with the same error.
* `Expr.imports_seenBy`, `Expr.typeOf_seenBy` : it needs the same imports and has the same type, as
  far as the language sees it.
-/

set_option autoImplicit false

namespace Polyglot.Expr

mutual

/-- What one language sees of an expression. -/
def seenBy (t : Target) : Expr → Expr
  | .literal value => .literal value
  | .null => .null
  | .omit => .omit
  | .list items inner => .list (seenByAll t items) (inner.seenBy t)
  | .dict entries valueType => .dict (seenByNamed t entries) (valueType.seenBy t)
  | .cast ty value => .cast (ty.seenBy t) (value.seenBy t)
  | .item selector target key => .item selector (target.seenBy t) (key.seenBy t)
  | .itemOr selector target key fallback =>
    .itemOr selector (target.seenBy t) (key.seenBy t) (fallback.seenBy t)
  | .var name ty => .var name (ty.map (Ty.seenBy t))
  | .field name ty => .field name (ty.seenBy t)
  | .prop owner name ty => .prop (owner.seenBy t) name (ty.seenBy t)
  | .call callee construct args named =>
    .call callee construct (seenByAll t args) (seenByNamed t named)
  | .apply callee construct args named =>
    .apply (callee.seenBy t) construct (seenByAll t args) (seenByNamed t named)
  | .text parts => .text (seenByParts t parts)
  | .only language code => .only language (if language = t then code else ⟨"", .literal⟩)
  | .junction op operands => .junction op (seenByAll t operands)
  | .not operand => .not (operand.seenBy t)
  | .length value => .length (value.seenBy t)
  | .isNull negated value => .isNull negated (value.seenBy t)
  | .compare op negated left right => .compare op negated (left.seenBy t) (right.seenBy t)
  | .isType test value => .isType test (value.seenBy t)
  | .supplied value => .supplied (value.seenBy t)
  | .await value => .await (value.seenBy t)
  | .perTarget codes => .perTarget (codes.seenBy none t)

def seenByAll (t : Target) : List Expr → List Expr
  | [] => []
  | e :: es => e.seenBy t :: seenByAll t es

def seenByNamed (t : Target) : List (String × Expr) → List (String × Expr)
  | [] => []
  | (name, e) :: es => (name, e.seenBy t) :: seenByNamed t es

def seenByParts (t : Target) : List Part → List Part
  | [] => []
  | .chars s :: ps => .chars s :: seenByParts t ps
  | .value e :: ps => .value (e.seenBy t) :: seenByParts t ps

end

/-! ## Writing -/

theorem foldsNegation_seenBy (t : Target) (e : Expr) :
    (e.seenBy t).foldsNegation = e.foldsNegation := by
  cases e <;> rfl

theorem render_not_seenBy {t : Target} {e : Expr} (hf : e.foldsNegation = false)
    (h : (e.seenBy t).render t = e.render t) :
    ((Expr.not e).seenBy t).render t = (Expr.not e).render t := by
  have hf' : (e.seenBy t).foldsNegation = false := by rw [foldsNegation_seenBy, hf]
  cases t with
  | python =>
      have h' : (e.seenBy .python).toPython = e.toPython := h
      show (Expr.not (e.seenBy .python)).toPython = (Expr.not e).toPython
      rw [toPython_not hf', toPython_not hf, h']
  | typescript =>
      have h' : (e.seenBy .typescript).toTypeScript = e.toTypeScript := h
      show (Expr.not (e.seenBy .typescript)).toTypeScript = (Expr.not e).toTypeScript
      rw [toTypeScript_not hf', toTypeScript_not hf, h']
  | php =>
      have h' : (e.seenBy .php).toPhp = e.toPhp := h
      show (Expr.not (e.seenBy .php)).toPhp = (Expr.not e).toPhp
      rw [toPhp_not hf', toPhp_not hf, h']

mutual

/-- An expression is written from what the language sees of it. -/
theorem render_seenBy (t : Target) : ∀ e : Expr, (e.seenBy t).render t = e.render t
  | .literal _ | .null | .omit | .var _ _ | .field _ _ => by cases t <;> rfl
  | .list items _ => by
      have ih := renderAll_seenBy t items
      cases t <;> simp_all only [renderAll, render, seenBy, toPython, toTypeScript, toPhp]
  | .dict entries _ => by
      have ih := renderNamed_seenBy t entries
      cases t <;> simp_all only [renderNamed, render, seenBy, toPython, toTypeScript, toPhp]
  | .cast ty value => by
      have ih := render_seenBy t value
      cases t <;> simp_all only [render, seenBy, toPython, toTypeScript, toPhp,
        Ty.pythonText_seenBy, Ty.typeScriptText_seenBy]
  | .item _ target key => by
      have iht := render_seenBy t target
      have ihk := render_seenBy t key
      cases t <;> simp_all only [render, seenBy, toPython, toTypeScript, toPhp]
  | .itemOr selector target key fallback => by
      have iht := render_seenBy t target
      have ihk := render_seenBy t key
      have ihf := render_seenBy t fallback
      cases selector <;> cases t <;> simp only [render] at iht ihk ihf ⊢ <;>
        simp only [seenBy, toPython, toTypeScript, toPhp, iht, ihk, ihf]
  | .prop owner _ _ => by
      have ih := render_seenBy t owner
      cases t <;> simp_all only [render, seenBy, toPython, toTypeScript, toPhp]
  | .call _ _ args [] => by
      have ih := renderAll_seenBy t args
      cases t <;> simp_all only [renderAll, render, seenBy, seenByNamed, toPython, toTypeScript,
        toPhp]
  | .call _ _ args (arg :: named) => by
      have ih := renderAll_seenBy t args
      have ihn := renderNamed_seenBy t (arg :: named)
      cases t <;> simp_all only [renderAll, renderNamed, render, seenBy, seenByNamed, toPython,
        toTypeScript, toPhp]
  | .apply callee _ args [] => by
      have ihc := render_seenBy t callee
      have ih := renderAll_seenBy t args
      cases t <;> simp_all only [renderAll, render, seenBy, seenByNamed, toPython, toTypeScript,
        toPhp]
  | .apply callee _ args (arg :: named) => by
      have ihc := render_seenBy t callee
      have ih := renderAll_seenBy t args
      have ihn := renderNamed_seenBy t (arg :: named)
      cases t <;> simp_all only [renderAll, renderNamed, render, seenBy, seenByNamed, toPython,
        toTypeScript, toPhp]
  | .text [] => by cases t <;> rfl
  | .text (.chars s :: parts) => by
      have ih := renderParts_seenBy t (.chars s :: parts)
      cases t <;> simp_all only [renderParts, render, seenBy, seenByParts, toPython, toTypeScript,
        toPhp]
  | .text (.value e :: parts) => by
      have ih := renderParts_seenBy t (.value e :: parts)
      cases t <;> simp_all only [renderParts, render, seenBy, seenByParts, toPython, toTypeScript,
        toPhp]
  | .only language code => by cases language <;> cases t <;> rfl
  | .junction _ [] => by cases t <;> rfl
  | .junction op (e :: es) => by
      have ih := renderAll_seenBy t (e :: es)
      cases t <;> simp_all only [renderAll, render, seenBy, seenByAll, toPython, toTypeScript,
        toPhp]
  | .not operand => by
      cases operand with
      | not inner =>
          have ih := render_seenBy t inner
          cases t <;> simp_all only [render, seenBy, toPython, toTypeScript, toPhp]
      | isNull negated value =>
          have ih := render_seenBy t value
          cases t <;> simp_all only [render, seenBy, toPython, toTypeScript, toPhp]
      | compare op negated left right =>
          have ihl := render_seenBy t left
          have ihr := render_seenBy t right
          cases t <;> simp_all only [render, seenBy, toPython, toTypeScript, toPhp]
      | _ => exact render_not_seenBy rfl (render_seenBy t _)
  | .length value => by
      have ih := render_seenBy t value
      cases t <;> simp_all only [render, seenBy, toPython, toTypeScript, toPhp]
  | .isNull _ value => by
      have ih := render_seenBy t value
      cases t <;> simp_all only [render, seenBy, toPython, toTypeScript, toPhp]
  | .compare _ _ left right => by
      have ihl := render_seenBy t left
      have ihr := render_seenBy t right
      cases t <;> simp_all only [render, seenBy, toPython, toTypeScript, toPhp]
  | .isType _ value => by
      have ih := render_seenBy t value
      cases t <;> simp_all only [render, seenBy, toPython, toTypeScript, toPhp]
  | .supplied value => by
      have ih := render_seenBy t value
      cases t <;> simp_all only [render, seenBy, toPython, toTypeScript, toPhp]
  | .await value => by
      have ih := render_seenBy t value
      cases t <;> simp_all only [render, seenBy, toPython, toTypeScript, toPhp]
  | .perTarget codes => by cases t <;> rfl

theorem renderAll_seenBy (t : Target) :
    ∀ es : List Expr, renderAll (seenByAll t es) t = renderAll es t
  | [] => rfl
  | e :: es => by
      have ih := render_seenBy t e
      have ihs := renderAll_seenBy t es
      cases t <;> simp_all only [renderAll, render, seenByAll, toPythonAll, toTypeScriptAll,
        toPhpAll]

theorem renderNamed_seenBy (t : Target) :
    ∀ es : List (String × Expr), renderNamed (seenByNamed t es) t = renderNamed es t
  | [] => rfl
  | (name, e) :: es => by
      have ih := render_seenBy t e
      have ihs := renderNamed_seenBy t es
      cases t <;> simp_all only [renderNamed, render, seenByNamed, toPythonNamed,
        toTypeScriptNamed, toPhpNamed]

theorem renderParts_seenBy (t : Target) :
    ∀ ps : List Part, renderParts (seenByParts t ps) t = renderParts ps t
  | [] => rfl
  | .chars s :: ps => by
      have ihs := renderParts_seenBy t ps
      cases t <;> simp_all only [renderParts, seenByParts, Part.toPythonAll, Part.toTypeScriptAll,
        Part.toPhpAll]
  | .value e :: ps => by
      have ih := render_seenBy t e
      have ihs := renderParts_seenBy t ps
      cases t <;> simp_all only [renderParts, render, seenByParts, Part.toPythonAll,
        Part.toTypeScriptAll, Part.toPhpAll]

end

/-! ## Types -/

/-- The type of what a language sees of an expression is what it sees of the type. -/
theorem typeOf_seenBy (t : Target) :
    ∀ e : Expr, (e.seenBy t).typeOf = (e.typeOf).map (Ty.seenBy t)
  | .literal value => by cases value <;> rfl
  | .var _ ty => by cases ty <;> rfl
  | .null | .omit | .list _ _ | .dict _ _ | .cast _ _ | .field _ _ | .prop _ _ _ | .call ..
  | .apply .. | .text _ | .only _ _ | .junction _ _ | .not _ | .isNull _ _ | .compare _ _ _ _
  | .isType _ _ | .supplied _ | .length _ | .await _ | .perTarget _ => rfl
  | .item selector target _ => by
      rw [seenBy, typeOf, typeOf, typeOf_seenBy t target]
      cases target.typeOf with
      | error e => rfl
      | ok ty => cases t <;> cases selector <;> cases ty <;> rfl
  | .itemOr selector target _ _ => by
      rw [seenBy, typeOf, typeOf, typeOf_seenBy t target]
      cases target.typeOf with
      | error e => rfl
      | ok ty => cases t <;> cases selector <;> cases ty <;> rfl

@[simp] theorem isMap_seenBy (t : Target) (e : Expr) : (e.seenBy t).isMap = e.isMap := by
  rw [isMap, typeOf_seenBy, isMap]
  cases e.typeOf with
  | error e => rfl
  | ok ty => cases t <;> cases ty <;> rfl

/-! ## Imports -/

mutual

/-- What a language sees of an expression needs the same imports. -/
theorem imports_seenBy (t : Target) : ∀ e : Expr, (e.seenBy t).imports t = e.imports t
  | .literal _ | .null | .omit | .var _ _ | .field _ _ | .only _ _ | .perTarget _ => rfl
  | .list items _ | .junction _ items => by
      rw [seenBy, imports, imports, importsAll_seenBy t items]
  | .dict entries _ => by
      rw [seenBy, imports, imports, importsNamed_seenBy t entries]
  | .cast ty value => by
      rw [seenBy, imports, imports, Ty.imports_seenBy, imports_seenBy t value]
  | .item _ target key => by
      rw [seenBy, imports, imports, imports_seenBy t target, imports_seenBy t key]
  | .itemOr _ target key fallback => by
      rw [seenBy, imports, imports, imports_seenBy t target, imports_seenBy t key,
        imports_seenBy t fallback]
  | .call _ _ args named => by
      rw [seenBy, imports, imports, importsAll_seenBy t args, importsNamed_seenBy t named]
  | .apply callee _ args named => by
      rw [seenBy, imports, imports, imports_seenBy t callee, importsAll_seenBy t args,
        importsNamed_seenBy t named]
  | .text parts => by
      rw [seenBy, imports, imports, importsParts_seenBy t parts]
  | .compare _ _ left right => by
      rw [seenBy, imports, imports, imports_seenBy t left, imports_seenBy t right]
  | .prop inner _ _ | .not inner | .length inner | .isNull _ inner | .isType _ inner
  | .supplied inner | .await inner => by
      rw [seenBy, imports, imports, imports_seenBy t inner]

theorem importsAll_seenBy (t : Target) :
    ∀ es : List Expr, importsAll t (seenByAll t es) = importsAll t es
  | [] => rfl
  | e :: es => by
      rw [seenByAll, importsAll, importsAll, imports_seenBy t e, importsAll_seenBy t es]

theorem importsNamed_seenBy (t : Target) :
    ∀ es : List (String × Expr), importsNamed t (seenByNamed t es) = importsNamed t es
  | [] => rfl
  | (name, e) :: es => by
      rw [seenByNamed, importsNamed, importsNamed, imports_seenBy t e, importsNamed_seenBy t es]

theorem importsParts_seenBy (t : Target) :
    ∀ ps : List Part, Part.importsAll t (seenByParts t ps) = Part.importsAll t ps
  | [] => rfl
  | .chars s :: ps => by
      rw [seenByParts, Part.importsAll, Part.importsAll, importsParts_seenBy t ps]
  | .value e :: ps => by
      rw [seenByParts, Part.importsAll, Part.importsAll, imports_seenBy t e,
        importsParts_seenBy t ps]

end

end Polyglot.Expr
