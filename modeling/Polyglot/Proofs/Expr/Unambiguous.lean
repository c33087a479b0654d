import Polyglot.Proofs.Expr.Reader
import Polyglot.Proofs.Expr.Separation

/-!
# Unambiguous code

No two core expressions have the same code: the code determines its tokens, and the tokens determine
the tree. So no pair of parentheses is ever missing between them, in any output language.
-/

set_option autoImplicit false

namespace Polyglot.Expr

/-- The tokens of a core expression determine it up to the types that it does not show. -/
theorem untyped_eq_of_tokens_eq {t : Target} {e₁ e₂ : Expr} (h₁ : e₁.IsCore) (h₂ : e₂.IsCore)
    (h : e₁.tokens t = e₂.tokens t) : e₁.untyped = e₂.untyped := by
  have read₁ := (reads t e₁ h₁).whole (4 * sizeOf e₁ + 4 * sizeOf e₂ + 1) [] (by omega) (.inl rfl)
  have read₂ := (reads t e₂ h₂).whole (4 * sizeOf e₁ + 4 * sizeOf e₂ + 1) [] (by omega) (.inl rfl)
  rw [h, read₂] at read₁
  exact (Prod.mk.inj (Option.some.inj read₁)).1.symm

/-- **Core expressions with equal code are the same tree**, up to the types that they carry. -/
theorem untyped_eq_of_text_eq (t : Target) {e₁ e₂ : Expr} (h₁ : e₁.IsCore) (h₂ : e₂.IsCore)
    {c₁ c₂ : Code} (r₁ : e₁.render t = .ok c₁) (r₂ : e₂.render t = .ok c₂)
    (h : c₁.text = c₂.text) : e₁.untyped = e₂.untyped :=
  untyped_eq_of_tokens_eq h₁ h₂ (tokens_eq_of_text_eq h₁ h₂ r₁ r₂ h)

/-- A negated combination of a comparison and a method call, with the given type for variables. -/
def negatedCombination (ty : Ty) : Expr :=
  .not (.junction .and
    [.compare .lt true (.item .position (.var "xs" (some ty)) (.literal (.int (-1))))
      (.literal (.str "it's")),
      .apply (.prop (.not (.var "xs" (some ty))) "has" ty) false [.list [.null] ty] []])

theorem isCore_negatedCombination (ty : Ty) : (negatedCombination ty).IsCore := by
  have hxs : IsName "xs" := by decide
  have hhas : IsName "has" := by decide
  exact ⟨rfl, ⟨⟨hxs, trivial⟩, trivial⟩, ⟨⟨rfl, hxs⟩, hhas, ⟨trivial, trivial⟩, trivial⟩, trivial⟩

theorem untyped_negatedCombination_eq :
    (negatedCombination .str).phpText = .ok "!(($xs[-1] >= 'it\\'s') && (!$xs)->has([null]))" ∧
      (negatedCombination .str).untyped = (negatedCombination (.list .num)).untyped :=
  ⟨rfl, untyped_eq_of_text_eq .php (isCore_negatedCombination .str)
    (isCore_negatedCombination (.list .num)) rfl rfl rfl⟩

end Polyglot.Expr
