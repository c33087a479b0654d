import Polyglot.Expr.Imports
import Polyglot.Proofs.Expr.Negation

/-!
# Other types in an expression

Every type that an expression holds, at any depth, is replaced through one function. PHP does not
see the replacement where it does not see it on types.

* `Ty.KeepsPhp` : PHP writes the replacement like the type, and needs the same imports for it.
* `Expr.mapTypes`, `Expr.heldTypes` : the replacement in an expression, and the types it reaches.
* `Expr.toPhp_mapTypes`, `Expr.imports_mapTypes` : what PHP writes and what it needs.
-/

set_option autoImplicit false

namespace Polyglot

/-- A replacement of types that makes no difference to PHP. -/
structure Ty.KeepsPhp (f : Ty → Ty) : Prop where
  toPhp : ∀ ty, (f ty).toPhp = ty.toPhp
  imports : ∀ ty, (f ty).imports .php = ty.imports .php

namespace Expr

mutual

/-- The expression with other types in it. -/
def mapTypes (f : Ty → Ty) : Expr → Expr
  | .literal value => .literal value
  | .null => .null
  | .omit => .omit
  | .list items inner => .list (mapTypesAll f items) (f inner)
  | .dict entries valueType => .dict (mapTypesNamed f entries) (f valueType)
  | .cast ty value => .cast (f ty) (value.mapTypes f)
  | .item selector target key => .item selector (target.mapTypes f) (key.mapTypes f)
  | .itemOr selector target key fallback =>
    .itemOr selector (target.mapTypes f) (key.mapTypes f) (fallback.mapTypes f)
  | .var name ty => .var name (ty.map f)
  | .field name ty => .field name (f ty)
  | .prop owner name ty => .prop (owner.mapTypes f) name (f ty)
  | .call callee construct args named =>
    .call callee construct (mapTypesAll f args) (mapTypesNamed f named)
  | .apply callee construct args named =>
    .apply (callee.mapTypes f) construct (mapTypesAll f args) (mapTypesNamed f named)
  | .text parts => .text (mapTypesParts f parts)
  | .only language code => .only language code
  | .junction op operands => .junction op (mapTypesAll f operands)
  | .not operand => .not (operand.mapTypes f)
  | .length value => .length (value.mapTypes f)
  | .isNull negated value => .isNull negated (value.mapTypes f)
  | .compare op negated left right => .compare op negated (left.mapTypes f) (right.mapTypes f)
  | .isType test value => .isType test (value.mapTypes f)
  | .supplied value => .supplied (value.mapTypes f)
  | .await value => .await (value.mapTypes f)
  | .perTarget codes => .perTarget codes

def mapTypesAll (f : Ty → Ty) : List Expr → List Expr
  | [] => []
  | e :: es => e.mapTypes f :: mapTypesAll f es

def mapTypesNamed (f : Ty → Ty) : List (String × Expr) → List (String × Expr)
  | [] => []
  | (name, e) :: es => (name, e.mapTypes f) :: mapTypesNamed f es

def mapTypesParts (f : Ty → Ty) : List Part → List Part
  | [] => []
  | .chars s :: ps => .chars s :: mapTypesParts f ps
  | .value e :: ps => .value (e.mapTypes f) :: mapTypesParts f ps

end

/-! ## The types that are replaced -/

mutual

/-- The types that an expression holds, at any depth, written or not. -/
def heldTypes : Expr → List Ty
  | .literal _ | .null | .omit | .only _ _ | .perTarget _ => []
  | .list items inner => inner :: heldTypesAll items
  | .dict entries valueType => valueType :: heldTypesNamed entries
  | .cast ty value => ty :: value.heldTypes
  | .item _ target key => target.heldTypes ++ key.heldTypes
  | .itemOr _ target key fallback => target.heldTypes ++ key.heldTypes ++ fallback.heldTypes
  | .var _ ty => ty.toList
  | .field _ ty => [ty]
  | .prop owner _ ty => ty :: owner.heldTypes
  | .call _ _ args named => heldTypesAll args ++ heldTypesNamed named
  | .apply callee _ args named => callee.heldTypes ++ heldTypesAll args ++ heldTypesNamed named
  | .text parts => heldTypesParts parts
  | .junction _ operands => heldTypesAll operands
  | .compare _ _ left right => left.heldTypes ++ right.heldTypes
  | .not value | .length value | .isNull _ value | .isType _ value | .supplied value
  | .await value => value.heldTypes

def heldTypesAll : List Expr → List Ty
  | [] => []
  | e :: es => e.heldTypes ++ heldTypesAll es

def heldTypesNamed : List (String × Expr) → List Ty
  | [] => []
  | (_, e) :: es => e.heldTypes ++ heldTypesNamed es

def heldTypesParts : List Part → List Ty
  | [] => []
  | .chars _ :: ps => heldTypesParts ps
  | .value e :: ps => e.heldTypes ++ heldTypesParts ps

end

mutual

/-- Every type is replaced, and nothing else is. -/
theorem heldTypes_mapTypes (f : Ty → Ty) : ∀ e : Expr, (e.mapTypes f).heldTypes = e.heldTypes.map f
  | .literal _ | .null | .omit | .only _ _ | .perTarget _ | .field _ _ => rfl
  | .var _ ty => by cases ty <;> rfl
  | .list items _ => by
      rw [mapTypes, heldTypes, heldTypes, List.map_cons, heldTypesAll_mapTypes f items]
  | .dict entries _ => by
      rw [mapTypes, heldTypes, heldTypes, List.map_cons, heldTypesNamed_mapTypes f entries]
  | .cast _ value | .prop value _ _ => by
      rw [mapTypes, heldTypes, heldTypes, List.map_cons, heldTypes_mapTypes f value]
  | .item _ target key => by
      rw [mapTypes, heldTypes, heldTypes, List.map_append, heldTypes_mapTypes f target,
        heldTypes_mapTypes f key]
  | .itemOr _ target key fallback => by
      rw [mapTypes, heldTypes, heldTypes, List.map_append, List.map_append,
        heldTypes_mapTypes f target, heldTypes_mapTypes f key, heldTypes_mapTypes f fallback]
  | .call _ _ args named => by
      rw [mapTypes, heldTypes, heldTypes, List.map_append, heldTypesAll_mapTypes f args,
        heldTypesNamed_mapTypes f named]
  | .apply callee _ args named => by
      rw [mapTypes, heldTypes, heldTypes, List.map_append, List.map_append,
        heldTypes_mapTypes f callee, heldTypesAll_mapTypes f args, heldTypesNamed_mapTypes f named]
  | .text parts => heldTypesParts_mapTypes f parts
  | .junction _ operands => heldTypesAll_mapTypes f operands
  | .compare _ _ left right => by
      rw [mapTypes, heldTypes, heldTypes, List.map_append, heldTypes_mapTypes f left,
        heldTypes_mapTypes f right]
  | .not value | .length value | .isNull _ value | .isType _ value | .supplied value
  | .await value => heldTypes_mapTypes f value

theorem heldTypesAll_mapTypes (f : Ty → Ty) :
    ∀ es : List Expr, heldTypesAll (mapTypesAll f es) = (heldTypesAll es).map f
  | [] => rfl
  | e :: es => by
      rw [mapTypesAll, heldTypesAll, heldTypesAll, List.map_append, heldTypes_mapTypes f e,
        heldTypesAll_mapTypes f es]

theorem heldTypesNamed_mapTypes (f : Ty → Ty) :
    ∀ es : List (String × Expr), heldTypesNamed (mapTypesNamed f es) = (heldTypesNamed es).map f
  | [] => rfl
  | (_, e) :: es => by
      rw [mapTypesNamed, heldTypesNamed, heldTypesNamed, List.map_append, heldTypes_mapTypes f e,
        heldTypesNamed_mapTypes f es]

theorem heldTypesParts_mapTypes (f : Ty → Ty) :
    ∀ ps : List Part, heldTypesParts (mapTypesParts f ps) = (heldTypesParts ps).map f
  | [] => rfl
  | .chars _ :: ps => heldTypesParts_mapTypes f ps
  | .value e :: ps => by
      rw [mapTypesParts, heldTypesParts, heldTypesParts, List.map_append, heldTypes_mapTypes f e,
        heldTypesParts_mapTypes f ps]

end

/-! ## PHP -/

theorem foldsNegation_mapTypes (f : Ty → Ty) (e : Expr) :
    (e.mapTypes f).foldsNegation = e.foldsNegation := by
  cases e <;> rfl

theorem toPhp_not_mapTypes {f : Ty → Ty} {e : Expr} (hfolds : e.foldsNegation = false)
    (h : (e.mapTypes f).toPhp = e.toPhp) :
    ((Expr.not e).mapTypes f).toPhp = (Expr.not e).toPhp := by
  rw [mapTypes, toPhp_not ((foldsNegation_mapTypes f e).trans hfolds), toPhp_not hfolds, h]

mutual

/-- PHP writes no type with an expression: a cast is written as its value. -/
theorem toPhp_mapTypes (f : Ty → Ty) : ∀ e : Expr, (e.mapTypes f).toPhp = e.toPhp
  | .literal _ | .null | .omit | .var _ _ | .field _ _ | .only _ _ | .perTarget _ | .supplied _
  | .await _ => rfl
  | .list items _ => by
      rw [mapTypes, toPhp, toPhp, toPhpAll_mapTypes f items]
  | .dict entries _ => by
      rw [mapTypes, toPhp, toPhp, toPhpNamed_mapTypes f entries]
  | .cast _ value => by
      rw [mapTypes, toPhp, toPhp, toPhp_mapTypes f value]
  | .item _ target key => by
      rw [mapTypes, toPhp, toPhp, toPhp_mapTypes f target, toPhp_mapTypes f key]
  | .itemOr _ target key fallback => by
      rw [mapTypes, toPhp, toPhp, toPhp_mapTypes f target, toPhp_mapTypes f key,
        toPhp_mapTypes f fallback]
  | .prop owner _ _ => by
      rw [mapTypes, toPhp, toPhp, toPhp_mapTypes f owner]
  | .call _ _ args [] => by
      rw [mapTypes, mapTypesNamed, toPhp, toPhp, toPhpAll_mapTypes f args]
  | .apply callee _ args [] => by
      rw [mapTypes, mapTypesNamed, toPhp, toPhp, toPhpAll_mapTypes f args, toPhp_mapTypes f callee]
  | .call _ _ _ ((_, _) :: _) | .apply _ _ _ ((_, _) :: _) => rfl
  | .text [] => rfl
  | .text (.chars s :: parts) => by
      have ih := toPhpParts_mapTypes f (.chars s :: parts)
      rw [mapTypesParts] at ih
      rw [mapTypes, mapTypesParts, toPhp, toPhp, ih]
      · simp
      · simp
  | .text (.value e :: parts) => by
      have ih := toPhpParts_mapTypes f (.value e :: parts)
      rw [mapTypesParts] at ih
      rw [mapTypes, mapTypesParts, toPhp, toPhp, ih]
      · simp
      · simp
  | .junction _ [] => rfl
  | .junction _ (e :: es) => by
      have ih := toPhpAll_mapTypes f (e :: es)
      rw [mapTypesAll] at ih
      rw [mapTypes, mapTypesAll, toPhp, toPhp, ih]
      · simp
      · simp
  | .not operand => by
      cases operand with
      | not inner => exact toPhp_mapTypes f inner
      | isNull _ value =>
          rw [mapTypes, mapTypes, toPhp, toPhp, toPhp_mapTypes f value]
      | compare _ _ left right =>
          rw [mapTypes, mapTypes, toPhp, toPhp, toPhp_mapTypes f left, toPhp_mapTypes f right]
      | _ => exact toPhp_not_mapTypes rfl (toPhp_mapTypes f _)
  | .compare _ _ left right => by
      rw [mapTypes, toPhp, toPhp, toPhp_mapTypes f left, toPhp_mapTypes f right]
  | .length value | .isNull _ value | .isType _ value => by
      rw [mapTypes, toPhp, toPhp, toPhp_mapTypes f value]

theorem toPhpAll_mapTypes (f : Ty → Ty) :
    ∀ es : List Expr, toPhpAll (mapTypesAll f es) = toPhpAll es
  | [] => rfl
  | e :: es => by
      rw [mapTypesAll, toPhpAll, toPhpAll, toPhp_mapTypes f e, toPhpAll_mapTypes f es]

theorem toPhpNamed_mapTypes (f : Ty → Ty) :
    ∀ es : List (String × Expr), toPhpNamed (mapTypesNamed f es) = toPhpNamed es
  | [] => rfl
  | (_, e) :: es => by
      rw [mapTypesNamed, toPhpNamed, toPhpNamed, toPhp_mapTypes f e, toPhpNamed_mapTypes f es]

theorem toPhpParts_mapTypes (f : Ty → Ty) :
    ∀ ps : List Part, Part.toPhpAll (mapTypesParts f ps) = Part.toPhpAll ps
  | [] => rfl
  | .chars _ :: ps => by
      rw [mapTypesParts, Part.toPhpAll, Part.toPhpAll, toPhpParts_mapTypes f ps]
  | .value e :: ps => by
      rw [mapTypesParts, Part.toPhpAll, Part.toPhpAll, toPhp_mapTypes f e,
        toPhpParts_mapTypes f ps]

end

@[simp] theorem phpText_mapTypes (f : Ty → Ty) (e : Expr) : (e.mapTypes f).phpText = e.phpText := by
  rw [phpText, toPhp_mapTypes, phpText]

/-! ## Imports -/

mutual

/-- The imports of an expression are those of its casts, which the replacement keeps. -/
theorem imports_mapTypes {f : Ty → Ty} (hf : Ty.KeepsPhp f) :
    ∀ e : Expr, (e.mapTypes f).imports .php = e.imports .php
  | .literal _ | .null | .omit | .var _ _ | .field _ _ | .only _ _ | .perTarget _ => rfl
  | .list items _ | .junction _ items => by
      rw [mapTypes, imports, imports, importsAll_mapTypes hf items]
  | .dict entries _ => by
      rw [mapTypes, imports, imports, importsNamed_mapTypes hf entries]
  | .cast ty value => by
      rw [mapTypes, imports, imports, hf.imports, imports_mapTypes hf value]
  | .item _ target key => by
      rw [mapTypes, imports, imports, imports_mapTypes hf target, imports_mapTypes hf key]
  | .itemOr _ target key fallback => by
      rw [mapTypes, imports, imports, imports_mapTypes hf target, imports_mapTypes hf key,
        imports_mapTypes hf fallback]
  | .call _ _ args named => by
      rw [mapTypes, imports, imports, importsAll_mapTypes hf args, importsNamed_mapTypes hf named]
  | .apply callee _ args named => by
      rw [mapTypes, imports, imports, imports_mapTypes hf callee, importsAll_mapTypes hf args,
        importsNamed_mapTypes hf named]
  | .text parts => by
      rw [mapTypes, imports, imports, importsParts_mapTypes hf parts]
  | .compare _ _ left right => by
      rw [mapTypes, imports, imports, imports_mapTypes hf left, imports_mapTypes hf right]
  | .prop inner _ _ | .not inner | .length inner | .isNull _ inner | .isType _ inner
  | .supplied inner | .await inner => by
      rw [mapTypes, imports, imports, imports_mapTypes hf inner]

theorem importsAll_mapTypes {f : Ty → Ty} (hf : Ty.KeepsPhp f) :
    ∀ es : List Expr, importsAll .php (mapTypesAll f es) = importsAll .php es
  | [] => rfl
  | e :: es => by
      rw [mapTypesAll, importsAll, importsAll, imports_mapTypes hf e, importsAll_mapTypes hf es]

theorem importsNamed_mapTypes {f : Ty → Ty} (hf : Ty.KeepsPhp f) :
    ∀ es : List (String × Expr), importsNamed .php (mapTypesNamed f es) = importsNamed .php es
  | [] => rfl
  | (_, e) :: es => by
      rw [mapTypesNamed, importsNamed, importsNamed, imports_mapTypes hf e,
        importsNamed_mapTypes hf es]

theorem importsParts_mapTypes {f : Ty → Ty} (hf : Ty.KeepsPhp f) :
    ∀ ps : List Part, Part.importsAll .php (mapTypesParts f ps) = Part.importsAll .php ps
  | [] => rfl
  | .chars _ :: ps => by
      rw [mapTypesParts, Part.importsAll, Part.importsAll, importsParts_mapTypes hf ps]
  | .value e :: ps => by
      rw [mapTypesParts, Part.importsAll, Part.importsAll, imports_mapTypes hf e,
        importsParts_mapTypes hf ps]

end

end Expr

end Polyglot
