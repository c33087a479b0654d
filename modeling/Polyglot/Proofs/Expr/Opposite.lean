import Mathlib.Algebra.Group.Nat.Even
import Mathlib.Data.Option.NAry
import Mathlib.Logic.Function.Iterate
import Polyglot.Expr.Imports
import Polyglot.Expr.Render
import Polyglot.Proofs.Outcome

/-!
# Opposite tests

A negation of a negation is written as the expression inside, so a tower of negations is written
with one of them or with none. A test that has an opposite is negated by another operator between
the same operands, and every language has such operators in pairs that answer differently.

* `Expr.render_iterate_not` : towers of negations.
* `WrittenTest`, `Target.answer?` : a test as it is written, and what the operators of a language
  say.
* `Comparison.answer?_operator_not`, `Target.answer?_nullOperator_not` : operators in pairs.
* `Expr.negated_opposite` : **negations fold into opposites.**
-/

set_option autoImplicit false

namespace Polyglot

open Outcome

variable {t : Target}

/-! ## Operators -/

/-- The null constant. -/
def Target.nullText : Target → String
  | .python => "None"
  | .typescript | .php => "null"

/-- The operator of a comparison. -/
def Comparison.operator : Target → Comparison → Bool → String
  | .python => pythonOperator
  | .typescript => typeScriptOperator
  | .php => phpOperator

/-- The operator of a test for null. -/
def Target.nullOperator : Target → Bool → String
  | .python, false => "is"
  | .python, true => "is not"
  | .typescript, false | .php, false => "==="
  | .typescript, true | .php, true => "!=="

/-- What an operator says of two operands, each of them an integer or null. Python compares with
null by identity, which says nothing reliable of integers, and no order has null in it. -/
def Target.answer? : Target → String → Option Int → Option Int → Option Bool
  | .python, "==", a, b | .typescript, "===", a, b | .php, "===", a, b => some (a == b)
  | .python, "!=", a, b | .typescript, "!==", a, b | .php, "!==", a, b => some (a != b)
  | .python, "is", a, none => some a.isNone
  | .python, "is not", a, none => some a.isSome
  | _, "<", a, b => Option.map₂ (fun m n => decide (m < n)) a b
  | _, "<=", a, b => Option.map₂ (fun m n => decide (m ≤ n)) a b
  | _, ">", a, b => Option.map₂ (fun m n => decide (m > n)) a b
  | _, ">=", a, b => Option.map₂ (fun m n => decide (m ≥ n)) a b
  | _, _, _, _ => none

/-- What a comparison says of two operands, whatever the language. -/
def Comparison.answer? : Comparison → Option Int → Option Int → Option Bool
  | .eq, a, b => some (a == b)
  | .lt, a, b => Option.map₂ (fun m n => decide (m < n)) a b
  | .gt, a, b => Option.map₂ (fun m n => decide (m > n)) a b

theorem decide_le_eq_not_lt (m n : Int) : decide (m ≤ n) = !decide (n < m) := by
  simp only [← Int.not_lt, decide_not]

/-- The operator of a comparison says what the comparison says, or the opposite if it is negated. -/
theorem Comparison.answer?_operator (op : Comparison) (negated : Bool) (a b : Option Int) :
    t.answer? (op.operator t negated) a b = (op.answer? a b).map (· != negated) := by
  cases t <;> cases op <;> cases negated <;> cases a <;> cases b <;>
    simp [operator, pythonOperator, typeScriptOperator, phpOperator, Target.answer?, answer?, bne,
      decide_le_eq_not_lt]

theorem Comparison.isSome_answer? (op : Comparison) (a b : Int) :
    (op.answer? (some a) (some b)).isSome := by
  cases op <;> rfl

/-- The operator of a test for null says whether the operand is null, or the opposite. -/
theorem Target.answer?_nullOperator (negated : Bool) (a : Option Int) :
    t.answer? (t.nullOperator negated) a none = some (a.isNone != negated) := by
  cases t <;> cases negated <;> cases a <;> rfl

/-! ## Tests -/

/-- A test as it is written: operands, and the operator between them. The right operand may be the
null constant. -/
structure WrittenTest where
  left : String
  operator : String
  right : Option String

namespace WrittenTest

/-- The code of the test. -/
def code (t : Target) (x : WrittenTest) : Code where
  text := x.left ++ " " ++ x.operator ++ " " ++ x.right.getD t.nullText
  tag :=
    match t, x.right with
    | .python, none | .typescript, none => .sum
    | _, _ => .product

/-- The truth value of the test, where `env` gives the values of the operands. -/
def eval (t : Target) (env : String → Option Int) (x : WrittenTest) : Option Bool :=
  t.answer? x.operator (env x.left) (x.right.bind env)

end WrittenTest

namespace Expr

variable {e e' : Expr}

/-- Whether the expression compares two values, or a value with null. -/
def isTest : Expr → Bool
  | .compare _ _ _ _ | .isNull _ _ => true
  | _ => false

/-- The test that an expression is written as, if it is one. -/
def test? (t : Target) : Expr → Option WrittenTest
  | .compare op negated left right =>
    match left.render t, right.render t with
    | .ok l, .ok r => some ⟨l.operand, op.operator t negated, some r.operand⟩
    | _, _ => none
  | .isNull negated value =>
    match value.render t with
    | .ok v => some ⟨v.operand, t.nullOperator negated, none⟩
    | .error _ => none
  | _ => none

/-- What a test says of its operands, whatever the language. -/
def says? : Expr → Option Int → Option Int → Option Bool
  | .compare op negated _ _, a, b => (op.answer? a b).map (· != negated)
  | .isNull negated _, a, _ => some (a.isNone != negated)
  | _, _, _ => none

section

variable {op : Comparison} {negated : Bool} {left right value : Expr} {l r v : Code}

theorem test?_compare (hl : left.render t = .ok l) (hr : right.render t = .ok r) :
    (compare op negated left right).test? t =
      some ⟨l.operand, op.operator t negated, some r.operand⟩ := by
  rw [test?, hl, hr]

theorem test?_isNull (hv : value.render t = .ok v) :
    (isNull negated value).test? t = some ⟨v.operand, t.nullOperator negated, none⟩ := by
  rw [test?, hv]

theorem render_compare (hl : left.render t = .ok l) (hr : right.render t = .ok r) :
    (compare op negated left right).render t =
      .ok (WrittenTest.code t ⟨l.operand, op.operator t negated, some r.operand⟩) := by
  cases t with
  | python =>
      rw [render] at hl hr ⊢
      rw [toPython, hl, hr]
      rfl
  | typescript =>
      rw [render] at hl hr ⊢
      rw [toTypeScript, hl, hr]
      rfl
  | php =>
      rw [render] at hl hr ⊢
      rw [toPhp, hl, hr]
      rfl

theorem render_isNull (hv : value.render t = .ok v) :
    (isNull negated value).render t =
      .ok (WrittenTest.code t ⟨v.operand, t.nullOperator negated, none⟩) := by
  cases t with
  | python =>
      rw [render] at hv ⊢
      rw [toPython, hv]
      cases negated <;> simp [Code.pythonIsNull, WrittenTest.code, Target.nullOperator,
        Target.nullText, String.append_assoc, pure, Except.pure]
  | typescript =>
      rw [render] at hv ⊢
      rw [toTypeScript, hv]
      cases negated <;> simp [Code.typeScriptIsNull, Code.base_eq_operand, WrittenTest.code,
        Target.nullOperator, Target.nullText, String.append_assoc, pure, Except.pure]
  | php =>
      rw [render] at hv ⊢
      rw [toPhp, hv]
      cases negated <;> simp [Code.phpIsNull, Code.base_eq_operand, WrittenTest.code,
        Target.nullOperator, Target.nullText, String.append_assoc, pure, Except.pure]

/-- A comparison can be written if its operands can be. -/
theorem exists_of_render_compare {c : Code} (h : (compare op negated left right).render t = .ok c) :
    ∃ l r, left.render t = .ok l ∧ right.render t = .ok r := by
  cases t with
  | python | typescript | php =>
      obtain ⟨l, hl, h⟩ := bind_eq_ok.1 h
      obtain ⟨r, hr, -⟩ := bind_eq_ok.1 h
      exact ⟨l, r, hl, hr⟩

theorem exists_of_render_isNull {c : Code} (h : (isNull negated value).render t = .ok c) :
    ∃ v, value.render t = .ok v := by
  cases t with
  | python | typescript | php =>
      obtain ⟨v, hv, -⟩ := bind_eq_ok.1 h
      exact ⟨v, hv⟩

end

/-! ## Negations -/

theorem render_not_not (e : Expr) (t : Target) : (Expr.not (.not e)).render t = e.render t := by
  cases t <;> rfl

/-- A tower of negations is written as the expression below it, or as its negation. -/
theorem render_iterate_not (e : Expr) (t : Target) (n : Nat) :
    (Expr.not^[n] e).render t = if Even n then e.render t else (Expr.not e).render t := by
  induction n using Nat.twoStepInduction with
  | zero => rw [if_pos Even.zero, Function.iterate_zero_apply]
  | one => rw [if_neg Nat.not_even_one, Function.iterate_one]
  | more n ih _ =>
      have heven : Even (n + 2) ↔ Even n := by
        rw [Nat.even_add_one, Nat.even_add_one, Classical.not_not]
      rw [Function.iterate_succ_apply', Function.iterate_succ_apply', render_not_not, ih]
      simp only [heven]

/-- An expression that has an opposite is a test or a negation. -/
theorem cases_of_negated? (h : e.negated? = some e') :
    (∃ op negated left right, e = .compare op negated left right ∧
      e' = .compare op (!negated) left right) ∨
    (∃ negated value, e = .isNull negated value ∧ e' = .isNull (!negated) value) ∨
    e = .not e' := by
  cases e with
  | compare op negated left right =>
      cases h
      exact .inl ⟨op, negated, left, right, rfl, rfl⟩
  | isNull negated value =>
      cases h
      exact .inr (.inl ⟨negated, value, rfl, rfl⟩)
  | not operand =>
      cases h
      exact .inr (.inr rfl)
  | _ => cases h

/-- The negation of an expression that has an opposite is written as the opposite, and the other way
around. -/
theorem render_not_of_negated? (h : e.negated? = some e') (t : Target) :
    (Expr.not e).render t = e'.render t ∧ (Expr.not e').render t = e.render t := by
  obtain ⟨op, negated, left, right, rfl, rfl⟩ | ⟨negated, value, rfl, rfl⟩ | rfl :=
    cases_of_negated? h
  · cases t <;> cases negated <;> exact ⟨rfl, rfl⟩
  · cases t <;> cases negated <;> exact ⟨rfl, rfl⟩
  · exact ⟨render_not_not e' t, rfl⟩

theorem imports_eq_of_negated? (h : e.negated? = some e') (t : Target) :
    e.imports t = e'.imports t := by
  obtain ⟨op, negated, left, right, rfl, rfl⟩ | ⟨negated, value, rfl, rfl⟩ | rfl :=
    cases_of_negated? h
  · rw [imports, imports]
  · rw [imports, imports]
  · rw [imports]

/-- The opposite says the opposite, if the test says anything. -/
theorem says?_of_negated? (h : e.negated? = some e') (htest : e.isTest = true) (a b : Option Int) :
    e'.says? a b = (e.says? a b).map (!·) := by
  obtain ⟨op, negated, left, right, rfl, rfl⟩ | ⟨negated, value, rfl, rfl⟩ | rfl :=
    cases_of_negated? h
  · rw [says?, says?, Option.map_map]
    congr 1
    funext answer
    cases answer <;> cases negated <;> rfl
  · rw [says?, says?]
    cases a.isNone <;> cases negated <;> rfl
  · cases htest

end Expr

/-- Tests of the same operands that never have the same truth value. They have one if the operands
are integers. -/
structure WrittenTest.IsOpposite (t : Target) (x x' : WrittenTest) : Prop where
  left : x'.left = x.left
  right : x'.right = x.right
  eval_eq : ∀ env : String → Option Int, x'.eval t env = (x.eval t env).map (!·)
  isSome_eval : ∀ env : String → Option Int, (∀ s, (env s).isSome) → (x.eval t env).isSome

namespace Expr

variable {e e' : Expr} {c : Code}

/-- A written test has the truth value that the expression says, in every language. -/
theorem exists_test (htest : e.isTest = true) (hc : e.render t = .ok c) :
    ∃ x : WrittenTest, e.test? t = some x ∧ c = x.code t ∧
      (∀ env, x.eval t env = e.says? (env x.left) (x.right.bind env)) ∧
      ∀ env : String → Option Int, (∀ s, (env s).isSome) → (x.eval t env).isSome := by
  cases e with
  | compare op negated left right =>
      obtain ⟨l, r, hl, hr⟩ := exists_of_render_compare hc
      rw [render_compare hl hr] at hc
      refine ⟨_, test?_compare hl hr, (Except.ok.inj hc).symm, fun env => ?_, fun env henv => ?_⟩
      · rw [WrittenTest.eval, Comparison.answer?_operator, says?]
      · obtain ⟨a, ha⟩ := Option.isSome_iff_exists.1 (henv l.operand)
        obtain ⟨b, hb⟩ := Option.isSome_iff_exists.1 (henv r.operand)
        rw [WrittenTest.eval, Comparison.answer?_operator, Option.isSome_map, ha, Option.bind_some,
          hb]
        exact op.isSome_answer? a b
  | isNull negated value =>
      obtain ⟨v, hv⟩ := exists_of_render_isNull hc
      rw [render_isNull hv] at hc
      refine ⟨_, test?_isNull hv, (Except.ok.inj hc).symm, fun env => ?_, fun env _ => ?_⟩
      · rw [WrittenTest.eval, Option.bind_none, Target.answer?_nullOperator, says?]
      · rw [WrittenTest.eval, Option.bind_none, Target.answer?_nullOperator, Option.isSome_some]
  | _ => cases htest

/-- The opposite of a test is a test that is written with the same operands. -/
theorem exists_opposite_operands (h : e.negated? = some e') (htest : e.isTest = true)
    (hc : e.render t = .ok c) {x : WrittenTest} (hx : e.test? t = some x) :
    e'.isTest = true ∧ ∃ x' : WrittenTest, e'.test? t = some x' ∧ e'.render t = .ok (x'.code t) ∧
      x'.left = x.left ∧ x'.right = x.right := by
  obtain ⟨op, negated, left, right, rfl, rfl⟩ | ⟨negated, value, rfl, rfl⟩ | rfl :=
    cases_of_negated? h
  · obtain ⟨l, r, hl, hr⟩ := exists_of_render_compare hc
    cases (test?_compare hl hr).symm.trans hx
    exact ⟨rfl, _, test?_compare hl hr, render_compare hl hr, rfl, rfl⟩
  · obtain ⟨v, hv⟩ := exists_of_render_isNull hc
    cases (test?_isNull hv).symm.trans hx
    exact ⟨rfl, _, test?_isNull hv, render_isNull hv, rfl, rfl⟩
  · cases htest

/-- A test and its opposite are written as opposite tests. -/
theorem exists_opposite_tests (h : e.negated? = some e') (htest : e.isTest = true)
    (hc : e.render t = .ok c) :
    ∃ x x' : WrittenTest, e.test? t = some x ∧ e'.test? t = some x' ∧ c = x.code t ∧
      e'.render t = .ok (x'.code t) ∧
      (∀ env, x.eval t env = e.says? (env x.left) (x.right.bind env)) ∧ x.IsOpposite t x' := by
  obtain ⟨x, hx, hcode, heval, hvalue⟩ := exists_test htest hc
  obtain ⟨htest', x', hx', hc', hleft, hright⟩ := exists_opposite_operands h htest hc hx
  obtain ⟨y, hy, -, heval', -⟩ := exists_test htest' hc'
  cases hx'.symm.trans hy
  refine ⟨x, x', hx, hx', hcode, hc', heval, hleft, hright, fun env => ?_, hvalue⟩
  rw [heval', hleft, hright, says?_of_negated? h htest, heval]

/-- **Negations fold into opposites.** In every language, a tower of negations is written as the
expression below it if it is even, and as its negation if it is odd. An expression and its opposite
are written as the negations of each other, and need the same imports. A test that can be written is
its operands with an operator between them, which says of all values of these what the test says in
every language; the opposite is written with the same operands and has the opposite truth value.
Both have one if the operands are integers. -/
theorem negated_opposite (e : Expr) (t : Target) :
    (∀ n, (Expr.not^[n] e).render t = if Even n then e.render t else (Expr.not e).render t) ∧
    ∀ e' : Expr, e.negated? = some e' →
      (Expr.not e').render t = e.render t ∧ (Expr.not e).render t = e'.render t ∧
      e.imports t = e'.imports t ∧
      (e.isTest = true → ∀ c, e.render t = .ok c →
        ∃ x x' : WrittenTest, e.test? t = some x ∧ e'.test? t = some x' ∧ c = x.code t ∧
          e'.render t = .ok (x'.code t) ∧
          (∀ env, x.eval t env = e.says? (env x.left) (x.right.bind env)) ∧
          x.IsOpposite t x') := by
  refine ⟨render_iterate_not e t, fun e' h => ?_⟩
  obtain ⟨hnot, hback⟩ := render_not_of_negated? h t
  exact ⟨hback, hnot, imports_eq_of_negated? h t, fun htest c hc =>
    exists_opposite_tests h htest hc⟩

/-- A length is compared with a number in one of two ways, however often the comparison is
negated. -/
theorem negated_opposite_of_length :
    let e : Expr := .compare .lt false (.length (.var "xs" none)) (.var "n" none)
    let e' : Expr := .compare .lt true (.length (.var "xs" none)) (.var "n" none)
    let env : String → Option Int := fun s => if s = "n" then some 5 else some 1
    e.negated? = some e' ∧ e.isTest = true ∧ e.render .python = .ok ⟨"len(xs) < n", .product⟩ ∧
      (Expr.not e).render .python = .ok ⟨"len(xs) >= n", .product⟩ ∧
      (Expr.not^[7] e).render .python = .ok ⟨"len(xs) >= n", .product⟩ ∧
      (WrittenTest.mk "len(xs)" "<" (some "n")).eval .python env = some true ∧
      (WrittenTest.mk "len(xs)" ">=" (some "n")).eval .python env = some false := by
  intro e e' env
  have hopposite : e.negated? = some e' := rfl
  have hcode : e.render .python = .ok ⟨"len(xs) < n", .product⟩ := rfl
  obtain ⟨htower, hpair⟩ := negated_opposite e .python
  obtain ⟨-, hnot, -, htests⟩ := hpair e' hopposite
  obtain ⟨x, x', hx, hx', -, -, -, hanswers⟩ := htests rfl _ hcode
  cases hx
  cases hx'
  have hrender : (Expr.not e).render .python = .ok ⟨"len(xs) >= n", .product⟩ := hnot
  refine ⟨hopposite, rfl, hcode, hrender, ?_, rfl, hanswers.eval_eq env⟩
  rw [htower 7, if_neg (by decide)]
  exact hrender

end Expr

end Polyglot
