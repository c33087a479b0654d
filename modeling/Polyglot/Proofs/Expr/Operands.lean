import Polyglot.Expr.Basic

/-!
# Expressions in expressions

The expressions that an expression is put together from, directly or at any depth.

* `Expr.operands` : the expressions directly inside an expression.
* `Expr.induction_on_operands` : induction from the operands to the expression.
* `Expr.Within` : one expression stands in another.
-/

set_option autoImplicit false

namespace Polyglot

/-- The expression of a part of a text, if it has one. -/
def Part.expr? : Part → Option Expr
  | .chars _ => none
  | .value e => some e

/-- The expressions directly inside an expression. -/
def Expr.operands : Expr → List Expr
  | .literal _ | .null | .omit | .var _ _ | .field _ _ | .only _ _ | .perTarget _ => []
  | .list items _ | .junction _ items => items
  | .dict entries _ => entries.map Prod.snd
  | .cast _ value => [value]
  | .item _ target key => [target, key]
  | .itemOr _ target key fallback => [target, key, fallback]
  | .prop owner _ _ => [owner]
  | .call _ _ args named => args ++ named.map Prod.snd
  | .apply callee _ args named => callee :: (args ++ named.map Prod.snd)
  | .text parts => parts.filterMap Part.expr?
  | .compare _ _ left right => [left, right]
  | .not value | .length value | .isNull _ value | .isType _ value | .supplied value
  | .await value => [value]

namespace Expr

/-- The value of an entry is smaller than the entries. -/
theorem sizeOf_lt_of_mem_values {entries : List (String × Expr)} {e : Expr}
    (h : e ∈ entries.map Prod.snd) : sizeOf e < sizeOf entries := by
  obtain ⟨⟨name, value⟩, hpair, rfl⟩ := List.mem_map.1 h
  have hlt := List.sizeOf_lt_of_mem hpair
  rw [Prod.mk.sizeOf_spec] at hlt
  dsimp only
  omega

/-- An operand is smaller than the expression that it stands in. -/
theorem sizeOf_lt_of_mem_operands {e inner : Expr} (h : inner ∈ e.operands) :
    sizeOf inner < sizeOf e := by
  cases e with
  | literal | null | «omit» | var | field | only | perTarget => exact nomatch h
  | list items =>
      have hlt : sizeOf inner < sizeOf items := List.sizeOf_lt_of_mem h
      rw [list.sizeOf_spec]
      omega
  | junction op items =>
      have hlt : sizeOf inner < sizeOf items := List.sizeOf_lt_of_mem h
      rw [junction.sizeOf_spec]
      omega
  | dict entries =>
      have hlt := sizeOf_lt_of_mem_values h
      rw [dict.sizeOf_spec]
      omega
  | text parts =>
      obtain ⟨part, hpart, hinner⟩ := List.mem_filterMap.1 h
      have hlt := List.sizeOf_lt_of_mem hpart
      cases part with
      | chars => cases hinner
      | value e =>
          cases hinner
          rw [Part.value.sizeOf_spec] at hlt
          rw [text.sizeOf_spec]
          omega
  | call callee construct args named =>
      rw [call.sizeOf_spec]
      rcases List.mem_append.1 h with h | h
      · have hlt := List.sizeOf_lt_of_mem h
        omega
      · have hlt := sizeOf_lt_of_mem_values h
        omega
  | apply callee construct args named =>
      rw [apply.sizeOf_spec]
      rcases List.mem_cons.1 h with rfl | h
      · omega
      · rcases List.mem_append.1 h with h | h
        · have hlt := List.sizeOf_lt_of_mem h
          omega
        · have hlt := sizeOf_lt_of_mem_values h
          omega
  | cast | prop | not | length | isNull | isType | supplied | await | item | itemOr | compare =>
      simp only [operands, List.mem_cons, List.not_mem_nil, or_false] at h
      simp only [cast.sizeOf_spec, prop.sizeOf_spec, not.sizeOf_spec, length.sizeOf_spec,
        isNull.sizeOf_spec, isType.sizeOf_spec, supplied.sizeOf_spec, await.sizeOf_spec,
        item.sizeOf_spec, itemOr.sizeOf_spec, compare.sizeOf_spec]
      rcases h with rfl | rfl | rfl <;> omega

/-- What passes from the operands to the expression holds of every expression. -/
theorem induction_on_operands {P : Expr → Prop} (step : ∀ e, (∀ o ∈ e.operands, P o) → P e)
    (e : Expr) : P e :=
  step e fun o h => by
    have := sizeOf_lt_of_mem_operands h
    exact induction_on_operands step o
termination_by sizeOf e

/-- The first expression stands in the second one, at any depth. An expression stands in itself. -/
inductive Within : Expr → Expr → Prop
  | self (e : Expr) : Within e e
  | operand {e inner node : Expr} : inner ∈ e.operands → Within node inner → Within node e

end Expr

end Polyglot
