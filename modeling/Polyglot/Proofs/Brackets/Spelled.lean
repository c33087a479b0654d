import Polyglot.Proofs.Brackets.Regular

/-!
# Spelled expressions

Expressions in which the caller spells nothing but names. What a name may be is a parameter: names
without brackets and quotes are enough for the brackets of the code, spaces ask for more. The base
of a named type is not looked at, for it is not written in code.

* `Ty.IsSpelled`, `Expr.IsSpelled` : the expressions, for one language.
* `Expr.IsRegular.isSpelled` : regular expressions are among them.
-/

set_option autoImplicit false

namespace Polyglot

variable {t : Target}

namespace Ty

mutual

/-- Whether the type is made of nothing but named types and the types of this library. -/
def IsSpelled (ok : String → Bool) : Ty → Prop
  | .any | .str | .num | .bool | .null | .omit | .literal _ => True
  | .optional inner | .list inner | .set inner => inner.IsSpelled ok
  | .dict key value | .map key value => key.IsSpelled ok ∧ value.IsSpelled ok
  | .union members => AllSpelled ok members
  | .callable params result => AllSpelled ok params ∧ result.IsSpelled ok
  | .alias name _ => ok name = true
  | .custom _ | .python _ _ | .typescript _ => False

/-- Whether all types are made so. -/
def AllSpelled (ok : String → Bool) : List Ty → Prop
  | [] => True
  | ty :: tys => ty.IsSpelled ok ∧ AllSpelled ok tys

end

theorem allSpelled_iff {ok : String → Bool} {tys : List Ty} :
    AllSpelled ok tys ↔ ∀ ty ∈ tys, ty.IsSpelled ok := by
  induction tys with
  | nil => exact iff_of_true trivial (List.forall_mem_nil _)
  | cons ty tys ih => rw [AllSpelled, ih, List.forall_mem_cons]

mutual

theorem IsRegular.isSpelled : ∀ ty : Ty, ty.IsRegular → ty.IsSpelled isInert
  | .any, _ | .str, _ | .num, _ | .bool, _ | .null, _ | .omit, _ | .literal _, _ => trivial
  | .optional inner, h | .list inner, h | .set inner, h => IsRegular.isSpelled inner h
  | .dict key value, h | .map key value, h =>
      ⟨IsRegular.isSpelled key h.1, IsRegular.isSpelled value h.2⟩
  | .union members, h => AllRegular.areSpelled members h
  | .callable params result, h =>
      ⟨AllRegular.areSpelled params h.1, IsRegular.isSpelled result h.2⟩
  | .alias _ _, h => h.1

theorem AllRegular.areSpelled : ∀ tys : List Ty, AllRegular tys → AllSpelled isInert tys
  | [], _ => trivial
  | ty :: tys, h => ⟨IsRegular.isSpelled ty h.1, AllRegular.areSpelled tys h.2⟩

end

end Ty

mutual

/-- Whether nothing in the expression but its names is spelled by the caller. In Python, a text that
is put together from parts has no values among them. -/
def Expr.IsSpelled (ok : String → Bool) (t : Target) : Expr → Prop
  | .literal _ | .null | .omit => True
  | .list items _ | .junction _ items => Expr.AllSpelled ok t items
  | .dict entries _ => Expr.NamedSpelled ok t entries
  | .cast ty value => ty.IsSpelled ok ∧ value.IsSpelled ok t
  | .item _ target key => target.IsSpelled ok t ∧ key.IsSpelled ok t
  | .itemOr _ target key fallback =>
    target.IsSpelled ok t ∧ key.IsSpelled ok t ∧ fallback.IsSpelled ok t
  | .var name _ | .field name _ => ok name = true
  | .prop owner name _ => owner.IsSpelled ok t ∧ ok name = true
  | .call callee _ args named =>
    ok callee = true ∧ Expr.AllSpelled ok t args ∧ Expr.NamedSpelled ok t named ∧
      ∀ a ∈ named, ok a.1 = true
  | .apply callee _ args named =>
    callee.IsSpelled ok t ∧ Expr.AllSpelled ok t args ∧ Expr.NamedSpelled ok t named ∧
      ∀ a ∈ named, ok a.1 = true
  | .text parts => Part.AllSpelled ok t parts
  | .compare _ _ left right => left.IsSpelled ok t ∧ right.IsSpelled ok t
  | .not value | .length value | .isNull _ value | .isType _ value | .supplied value
  | .await value => value.IsSpelled ok t
  | .only _ _ | .perTarget _ => False

/-- Whether all expressions are made so. -/
def Expr.AllSpelled (ok : String → Bool) (t : Target) : List Expr → Prop
  | [] => True
  | e :: es => e.IsSpelled ok t ∧ Expr.AllSpelled ok t es

/-- Whether the values of all entries are made so. -/
def Expr.NamedSpelled (ok : String → Bool) (t : Target) : List (String × Expr) → Prop
  | [] => True
  | (_, e) :: es => e.IsSpelled ok t ∧ Expr.NamedSpelled ok t es

/-- Whether all parts of a text are made so; its characters are free. -/
def Part.AllSpelled (ok : String → Bool) (t : Target) : List Part → Prop
  | [] => True
  | .chars _ :: ps => Part.AllSpelled ok t ps
  | .value e :: ps => t ≠ .python ∧ e.IsSpelled ok t ∧ Part.AllSpelled ok t ps

end

mutual

/-- A regular expression is spelled by inert names, in the languages that it is regular for. -/
theorem Expr.IsRegular.isSpelled (ht : t ≠ .python) :
    ∀ e : Expr, e.IsRegular → e.IsSpelled isInert t
  | .literal _, _ | .null, _ | .omit, _ => trivial
  | .list items _, h | .junction _ items, h => Expr.AllRegular.areSpelled ht items h
  | .dict entries _, h => Expr.NamedRegular.areSpelled ht entries h
  | .cast ty value, h => ⟨Ty.IsRegular.isSpelled ty h.1, Expr.IsRegular.isSpelled ht value h.2⟩
  | .item _ target key, h =>
      ⟨Expr.IsRegular.isSpelled ht target h.1, Expr.IsRegular.isSpelled ht key h.2⟩
  | .itemOr _ target key fallback, h =>
      ⟨Expr.IsRegular.isSpelled ht target h.1, Expr.IsRegular.isSpelled ht key h.2.1,
        Expr.IsRegular.isSpelled ht fallback h.2.2⟩
  | .var _ _, h | .field _ _, h => h
  | .prop owner _ _, h => ⟨Expr.IsRegular.isSpelled ht owner h.1, h.2⟩
  | .call _ _ args named, h =>
      ⟨h.1, Expr.AllRegular.areSpelled ht args h.2.1,
        Expr.NamedRegular.areSpelled ht named h.2.2.1, h.2.2.2⟩
  | .apply callee _ args named, h =>
      ⟨Expr.IsRegular.isSpelled ht callee h.1, Expr.AllRegular.areSpelled ht args h.2.1,
        Expr.NamedRegular.areSpelled ht named h.2.2.1, h.2.2.2⟩
  | .text parts, h => Part.AllRegular.areSpelled ht parts h
  | .compare _ _ left right, h =>
      ⟨Expr.IsRegular.isSpelled ht left h.1, Expr.IsRegular.isSpelled ht right h.2⟩
  | .not value, h | .length value, h | .isNull _ value, h | .isType _ value, h
  | .supplied value, h | .await value, h => Expr.IsRegular.isSpelled ht value h

theorem Expr.AllRegular.areSpelled (ht : t ≠ .python) :
    ∀ es : List Expr, Expr.AllRegular es → Expr.AllSpelled isInert t es
  | [], _ => trivial
  | e :: es, h => ⟨Expr.IsRegular.isSpelled ht e h.1, Expr.AllRegular.areSpelled ht es h.2⟩

theorem Expr.NamedRegular.areSpelled (ht : t ≠ .python) :
    ∀ es : List (String × Expr), Expr.NamedRegular es → Expr.NamedSpelled isInert t es
  | [], _ => trivial
  | (_, e) :: es, h => ⟨Expr.IsRegular.isSpelled ht e h.1, Expr.NamedRegular.areSpelled ht es h.2⟩

theorem Part.AllRegular.areSpelled (ht : t ≠ .python) :
    ∀ ps : List Part, Part.AllRegular ps → Part.AllSpelled isInert t ps
  | [], _ => trivial
  | .chars _ :: ps, h => Part.AllRegular.areSpelled ht ps h
  | .value e :: ps, h =>
      ⟨ht, Expr.IsRegular.isSpelled ht e h.1, Part.AllRegular.areSpelled ht ps h.2⟩

end

end Polyglot
