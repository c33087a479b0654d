import Polyglot.Expr.Typing
import Polyglot.Proofs.Access.Fallback
import Polyglot.Proofs.Expr.Lists
import Polyglot.Proofs.Expr.Negation
import Polyglot.Stmt.TypeScript

/-!
# The values of operators and texts

The static type of a test, a logical combination or a negation is `bool`, and that of a text put
together from parts is `str`. The code of such an expression is an operator around the code of its
operands, which has a value of this type whatever the operands are. But a negation of a negation is
written as the operand of both, and so is a text of a single value in PHP.

* `Form`, `Form.eval` : the outermost operator of code, and its value.
* `Form.Writes` : the form in which an expression is written.
* `Expr.source` : the expression whose value the code of an expression has.
* `Form.eval_isOf_iff` : **whether the value is always of the static type.**
-/

set_option autoImplicit false

namespace Polyglot

open Outcome Lookup

variable {t : Target}

/-! ## Values and forms -/

/-- A value is of a type, as far as the type is that of scalars. -/
def Lookup.Value.IsOf (v : Value) : Ty → Prop
  | .bool => ∃ b, v = .bool b
  | .num => ∃ n, v = .int n
  | .str => ∃ s, v = .str s
  | _ => False

theorem Lookup.Value.not_isOf_null {ty : Ty} : ¬Value.null.IsOf ty := by
  cases ty <;> simp [IsOf]

theorem Lookup.Value.eq_of_isOf {v : Value} {ty ty' : Ty} (h : v.IsOf ty) (h' : v.IsOf ty') :
    ty = ty' := by
  cases ty <;> cases ty' <;> grind [IsOf]

/-- The value of a constant. -/
def Literal.value : Literal → Value
  | .bool b => .bool b
  | .int n => .int n
  | .str s => .str s

theorem Literal.isOf_value (l : Literal) : l.value.IsOf l.ty := by
  cases l <;> exact ⟨_, rfl⟩

/-- How a program runs: the values of code, the answers of operators to values, and the text that is
put together from written pieces. -/
structure Machine where
  value : Code → Value
  compare : Comparison → Bool → Value → Value → Bool
  isTrue : Value → Bool
  hasType : TypeTest → Value → Bool
  join : List String → String

/-- The outermost operator of code, around the code of its operands. An `operand` has no operator of
this library, and a `group` has parentheses as far as an operand needs them. -/
inductive Form where
  | operand (c : Code)
  | literal (l : Literal)
  | cast (ty : String) (value : Form)
  | group (value : Form)
  | compare (op : Comparison) (negated : Bool) (left right : Code)
  | isNull (negated : Bool) (value : Code)
  | not (value : Code)
  | isType (test : TypeTest) (value : Code)
  | supplied (value : Code)
  | junction (op : Junction) (operands : List Code)
  | text (pieces : List String)

namespace Form

/-- How a form is written. PHP has no test whether a value was supplied. -/
def code : Target → Form → Code
  | _, .operand c => c
  | .python, .literal l => ⟨l.toPython, .literal⟩
  | .typescript, .literal l => ⟨l.toTypeScript, .literal⟩
  | .php, .literal l => ⟨l.toPhp, .literal⟩
  | .python, .cast ty v => ⟨Code.callText "cast" [ty, (v.code .python).text], .access⟩
  | .typescript, .cast ty v => ⟨"(" ++ (v.code .typescript).base ++ " as " ++ ty ++ ")", .literal⟩
  | .php, .cast _ v => v.code .php
  | t, .group v => ⟨(v.code t).operand, .product⟩
  | .python, .compare op negated l r => op.toPython negated l r
  | .typescript, .compare op negated l r => op.toTypeScript negated l r
  | .php, .compare op negated l r => op.toPhp negated l r
  | .python, .isNull negated c => c.pythonIsNull negated
  | .typescript, .isNull negated c => c.typeScriptIsNull negated
  | .php, .isNull negated c => c.phpIsNull negated
  | .python, .not c => ⟨"not " ++ c.operand, .product⟩
  | .typescript, .not c | .php, .not c => ⟨"!" ++ c.operand, .product⟩
  | .python, .isType test c => ⟨Code.callText "isinstance" [c.text, test.pythonClass], .access⟩
  | .typescript, .isType test c => test.toTypeScript c
  | .php, .isType test c => ⟨test.phpFunction ++ "(" ++ c.text ++ ")", .access⟩
  | .python, .supplied c =>
    ⟨"not " ++ Code.callText "isinstance" [c.text, "type(...)"], .product⟩
  | .typescript, .supplied c => ⟨"typeof " ++ c.base ++ " !== 'undefined'", .product⟩
  | .php, .supplied c => c
  | .python, .junction op cs => ⟨op.toPython cs, .access⟩
  | .typescript, .junction op cs => ⟨op.toTypeScript cs, .product⟩
  | .php, .junction op cs => ⟨op.toPhp cs, .product⟩
  | .python, .text pieces => ⟨"f\"" ++ String.join pieces ++ "\"", .literal⟩
  | .typescript, .text pieces => ⟨"\x60" ++ String.join pieces ++ "\x60", .literal⟩
  | .php, .text [] => ⟨"''", .literal⟩
  | .php, .text pieces => ⟨" . ".intercalate pieces, .product⟩

/-- The value of a form. A cast and parentheses have that of what stands in them. -/
def eval (m : Machine) : Form → Value
  | .operand c => m.value c
  | .literal l => l.value
  | .cast _ v | .group v => v.eval m
  | .compare op negated l r => .bool (m.compare op negated (m.value l) (m.value r))
  | .isNull negated c => .bool ((m.value c).isNull != negated)
  | .not c => .bool (!m.isTrue (m.value c))
  | .isType test c => .bool (m.hasType test (m.value c))
  | .supplied c => .bool (!(m.value c).isOmitted)
  | .junction .and cs => .bool (cs.all fun c => m.isTrue (m.value c))
  | .junction .or cs => .bool (cs.any fun c => m.isTrue (m.value c))
  | .text pieces => .str (m.join pieces)

end Form

/-! ## Expressions -/

namespace Expr

/-- The static type of a test, a logical combination, a negation or a text. -/
def operationType? : Expr → Option Ty
  | .junction _ _ | .not _ | .isNull _ _ | .compare _ _ _ _ | .isType _ _ | .supplied _ =>
    some .bool
  | .text _ => some .str
  | _ => none

theorem typeOf_of_operationType? {e : Expr} {ty : Ty} (h : e.operationType? = some ty) :
    e.typeOf = .ok ty := by
  cases e <;> cases h <;> rfl

/-- The type of the values that the root of an expression makes, if it makes one of its own. -/
def rootType? : Expr → Option Ty
  | .literal l => some l.ty
  | e => e.operationType?

theorem rootType?_of_operationType? {e : Expr} {ty : Ty} (h : e.operationType? = some ty) :
    e.rootType? = some ty := by
  cases e with
  | literal _ => cases h
  | _ => exact h

/-- The expression whose code, or whose value in a cast, is all that an expression is written as. -/
def inner? (t : Target) : Expr → Option Expr
  | .not (.not e) => some e
  | .cast _ e => some e
  | .text [.value e] => if t = .php then some e else none
  | _ => none

theorem inner?_loneValue {e : Expr} (ht : t = .php) : (text [.value e]).inner? t = some e :=
  if_pos ht

theorem inner?_not {e : Expr} (he : e.foldsNegation = false) : (Expr.not e).inner? t = none := by
  cases e with
  | not _ => cases he
  | _ => rfl

theorem sizeOf_lt_of_inner? {e inner : Expr} (h : e.inner? t = some inner) :
    sizeOf inner < sizeOf e := by
  unfold inner? at h
  split at h <;> simp at h <;> grind

/-- The expression whose value the code of an expression has. -/
def source (t : Target) (e : Expr) : Expr :=
  match _h : e.inner? t with
  | some inner => inner.source t
  | none => e
termination_by sizeOf e
decreasing_by exact sizeOf_lt_of_inner? _h

theorem source_of_some {e inner : Expr} (h : e.inner? t = some inner) :
    e.source t = inner.source t := by
  rw [source]
  split
  · next h' =>
      rw [h] at h'
      cases h'
      rfl
  · next h' =>
      rw [h] at h'
      cases h'

theorem source_of_none {e : Expr} (h : e.inner? t = none) : e.source t = e := by
  rw [source]
  split
  · next h' =>
      rw [h] at h'
      cases h'
  · rfl

end Expr

/-- The type of a cast as it is written. PHP writes none. -/
def Ty.castText (ty : Ty) : Target → Except Error String
  | .python => ty.pythonText
  | .typescript => ty.typeScriptText
  | .php => .ok ""

/-- The form in which an expression is written. -/
inductive Form.Writes (t : Target) : Expr → Form → Prop
  | literal (l : Literal) : Writes t (.literal l) (.literal l)
  | doubleNot {e : Expr} {f : Form} : Writes t e f → Writes t (.not (.not e)) f
  | cast {ty : Ty} {s : String} {e : Expr} {f : Form} : ty.castText t = .ok s → Writes t e f →
      Writes t (.cast ty e) (.cast s f)
  | loneValue {e : Expr} {f : Form} : t = .php → Writes t e f →
      Writes t (.text [.value e]) (.group f)
  | compare {op : Comparison} {negated : Bool} {left right : Expr} {l r : Code} :
      left.render t = .ok l → right.render t = .ok r →
      Writes t (.compare op negated left right) (.compare op negated l r)
  | notCompare {op : Comparison} {negated : Bool} {left right : Expr} {l r : Code} :
      left.render t = .ok l → right.render t = .ok r →
      Writes t (.not (.compare op negated left right)) (.compare op (!negated) l r)
  | isNull {negated : Bool} {e : Expr} {c : Code} : e.render t = .ok c →
      Writes t (.isNull negated e) (.isNull negated c)
  | notIsNull {negated : Bool} {e : Expr} {c : Code} : e.render t = .ok c →
      Writes t (.not (.isNull negated e)) (.isNull (!negated) c)
  | not {e : Expr} {c : Code} : e.foldsNegation = false → e.render t = .ok c →
      Writes t (.not e) (.not c)
  | isType {test : TypeTest} {e : Expr} {c : Code} : e.render t = .ok c →
      Writes t (.isType test e) (.isType test c)
  | supplied {e : Expr} {c : Code} : t ≠ .php → e.render t = .ok c →
      Writes t (.supplied e) (.supplied c)
  | junction {op : Junction} {es : List Expr} {cs : List Code} : es ≠ [] →
      Expr.renderAll es t = .ok cs → Writes t (.junction op es) (.junction op cs)
  | text {parts : List Part} {pieces : List String} : (Expr.text parts).inner? t = none →
      Expr.renderParts parts t = .ok pieces → Writes t (.text parts) (.text pieces)
  | operand {e : Expr} {c : Code} : e.rootType? = none → e.inner? t = none → e.render t = .ok c →
      Writes t e (.operand c)

namespace Expr

theorem eq_of_inner? {e inner : Expr} (h : e.inner? t = some inner) :
    e = .not (.not inner) ∨ (∃ ty, e = .cast ty inner) ∨ t = .php ∧ e = .text [.value inner] := by
  unfold inner? at h
  split at h
  · cases h
    exact .inl rfl
  · cases h
    exact .inr (.inl ⟨_, rfl⟩)
  · split at h
    · next ht =>
        cases h
        exact .inr (.inr ⟨ht, rfl⟩)
    · cases h
  · cases h

/-- A cast is written around its value, and in PHP as its value. -/
theorem exists_of_cast {ty : Ty} {e : Expr} {r : Code} (h : (Expr.cast ty e).render t = .ok r) :
    ∃ s v, ty.castText t = .ok s ∧ e.render t = .ok v ∧
      ∀ f : Form, f.code t = v → (Form.cast s f).code t = r := by
  cases t with
  | python =>
      obtain ⟨s, hs, h⟩ := bind_eq_ok.1 h
      obtain ⟨v, hv, h⟩ := bind_eq_ok.1 h
      cases pure_eq_ok.1 h
      refine ⟨s, v, hs, hv, fun f hf => ?_⟩
      rw [Form.code, hf]
  | typescript =>
      obtain ⟨v, hv, h⟩ := bind_eq_ok.1 h
      obtain ⟨s, hs, h⟩ := bind_eq_ok.1 h
      cases pure_eq_ok.1 h
      refine ⟨s, v, hs, hv, fun f hf => ?_⟩
      rw [Form.code, hf]
  | php => exact ⟨"", r, rfl, h, fun f hf => hf⟩

/-- A text of a single value is written in PHP as that value. -/
theorem exists_of_loneValue {e : Expr} {r : Code} (h : (Expr.text [.value e]).render .php = .ok r) :
    ∃ v, e.render .php = .ok v ∧ r = ⟨v.operand, .product⟩ := by
  obtain ⟨_, hps, h⟩ := bind_eq_ok.1 h
  obtain ⟨v, hv, hps⟩ := bind_eq_ok.1 hps
  cases pure_eq_ok.1 hps
  cases pure_eq_ok.1 h
  exact ⟨v, hv, rfl⟩

/-- A text that is not written as a single value is a literal, or pieces that are joined. -/
theorem exists_pieces {parts : List Part} (hinner : (Expr.text parts).inner? t = none) {r : Code}
    (h : (Expr.text parts).render t = .ok r) :
    ∃ pieces, renderParts parts t = .ok pieces ∧ (Form.text pieces).code t = r := by
  cases t with
  | python | typescript =>
      obtain ⟨pieces, hpieces, h⟩ := bind_eq_ok.1 h
      exact ⟨pieces, hpieces, pure_eq_ok.1 h⟩
  | php =>
      cases parts with
      | nil =>
          cases h
          exact ⟨[], rfl, rfl⟩
      | cons p ps =>
          obtain ⟨pieces, hpieces, h⟩ := bind_eq_ok.1 h
          cases pure_eq_ok.1 h
          refine ⟨pieces, hpieces, ?_⟩
          -- The first part is a piece, so this is no empty text.
          cases p with
          | chars s =>
              obtain ⟨rest, -, hrest⟩ := bind_eq_ok.1 hpieces
              cases pure_eq_ok.1 hrest
              rfl
          | value e =>
              obtain ⟨c, -, hrest⟩ := bind_eq_ok.1 hpieces
              obtain ⟨rest, -, hrest⟩ := bind_eq_ok.1 hrest
              cases pure_eq_ok.1 hrest
              rfl

theorem exists_of_compare {op : Comparison} {negated : Bool} {left right : Expr} {r : Code}
    (h : (Expr.compare op negated left right).render t = .ok r) :
    ∃ a b, left.render t = .ok a ∧ right.render t = .ok b ∧
      (Form.compare op negated a b).code t = r := by
  cases t with
  | python | typescript | php =>
      obtain ⟨a, ha, h⟩ := bind_eq_ok.1 h
      obtain ⟨b, hb, h⟩ := bind_eq_ok.1 h
      exact ⟨a, b, ha, hb, pure_eq_ok.1 h⟩

theorem exists_of_isNull {negated : Bool} {e : Expr} {r : Code}
    (h : (Expr.isNull negated e).render t = .ok r) :
    ∃ c, e.render t = .ok c ∧ (Form.isNull negated c).code t = r := by
  cases t with
  | python | typescript | php =>
      obtain ⟨c, hc, h⟩ := bind_eq_ok.1 h
      exact ⟨c, hc, pure_eq_ok.1 h⟩

theorem exists_of_isType {test : TypeTest} {e : Expr} {r : Code}
    (h : (Expr.isType test e).render t = .ok r) :
    ∃ c, e.render t = .ok c ∧ (Form.isType test c).code t = r := by
  cases t with
  | python | typescript | php =>
      obtain ⟨c, hc, h⟩ := bind_eq_ok.1 h
      exact ⟨c, hc, pure_eq_ok.1 h⟩

theorem exists_of_supplied {e : Expr} {r : Code} (h : (Expr.supplied e).render t = .ok r) :
    t ≠ .php ∧ ∃ c, e.render t = .ok c ∧ (Form.supplied c).code t = r := by
  cases t with
  | python | typescript =>
      obtain ⟨c, hc, h⟩ := bind_eq_ok.1 h
      exact ⟨nofun, c, hc, pure_eq_ok.1 h⟩
  | php => cases h

theorem exists_of_junction {op : Junction} {es : List Expr} {r : Code}
    (h : (Expr.junction op es).render t = .ok r) :
    es ≠ [] ∧ ∃ cs, renderAll es t = .ok cs ∧ (Form.junction op cs).code t = r := by
  cases es with
  | nil => cases t <;> cases h
  | cons e es =>
      cases t with
      | python | typescript | php =>
          obtain ⟨cs, hcs, h⟩ := bind_eq_ok.1 h
          exact ⟨nofun, cs, hcs, pure_eq_ok.1 h⟩

/-- A negation that is not folded into its operand stands in front of it. -/
theorem exists_of_not {e : Expr} (he : e.foldsNegation = false) {r : Code}
    (h : (Expr.not e).render t = .ok r) :
    ∃ c, e.render t = .ok c ∧ (Form.not c).code t = r := by
  cases t with
  | python =>
      rw [render, toPython_not he] at h
      obtain ⟨c, hc, h⟩ := bind_eq_ok.1 h
      exact ⟨c, hc, pure_eq_ok.1 h⟩
  | typescript =>
      rw [render, toTypeScript_not he] at h
      obtain ⟨c, hc, h⟩ := bind_eq_ok.1 h
      exact ⟨c, hc, pure_eq_ok.1 h⟩
  | php =>
      rw [render, toPhp_not he] at h
      obtain ⟨c, hc, h⟩ := bind_eq_ok.1 h
      exact ⟨c, hc, pure_eq_ok.1 h⟩

/-- A negation is written as the opposite test, or in front of its operand. -/
theorem exists_negation {e : Expr} (hinner : (Expr.not e).inner? t = none) {r : Code}
    (h : (Expr.not e).render t = .ok r) :
    ∃ f : Form, Form.Writes t (.not e) f ∧ f.code t = r := by
  cases hfolds : e.foldsNegation with
  | false =>
      obtain ⟨c, hc, hcode⟩ := exists_of_not hfolds h
      exact ⟨.not c, .not hfolds hc, hcode⟩
  | true =>
      cases e with
      | not _ => cases hinner
      | compare op negated left right =>
          have hopposite : (Expr.compare op (!negated) left right).render t = .ok r := by
            cases t <;> exact h
          obtain ⟨a, b, ha, hb, hcode⟩ := exists_of_compare hopposite
          exact ⟨.compare op (!negated) a b, .notCompare ha hb, hcode⟩
      | isNull negated value =>
          have hopposite : (Expr.isNull (!negated) value).render t = .ok r := by
            cases t <;> exact h
          obtain ⟨c, hc, hcode⟩ := exists_of_isNull hopposite
          exact ⟨.isNull (!negated) c, .notIsNull hc, hcode⟩
      | _ => cases hfolds

/-- An expression that is not written as one in it has an operator of its own, or is an operand. -/
theorem exists_root {e : Expr} (hinner : e.inner? t = none) {r : Code} (h : e.render t = .ok r) :
    ∃ f : Form, Form.Writes t e f ∧ f.code t = r := by
  cases e with
  | literal l =>
      have hcode : (Form.literal l).code t = r := by
        cases t <;> exact Except.ok.inj h
      exact ⟨.literal l, .literal l, hcode⟩
  | cast _ _ => cases hinner
  | text parts =>
      obtain ⟨pieces, hpieces, hcode⟩ := exists_pieces hinner h
      exact ⟨.text pieces, .text hinner hpieces, hcode⟩
  | compare op negated left right =>
      obtain ⟨a, b, ha, hb, hcode⟩ := exists_of_compare h
      exact ⟨.compare op negated a b, .compare ha hb, hcode⟩
  | isNull negated value =>
      obtain ⟨c, hc, hcode⟩ := exists_of_isNull h
      exact ⟨.isNull negated c, .isNull hc, hcode⟩
  | isType test value =>
      obtain ⟨c, hc, hcode⟩ := exists_of_isType h
      exact ⟨.isType test c, .isType hc, hcode⟩
  | supplied value =>
      obtain ⟨ht, c, hc, hcode⟩ := exists_of_supplied h
      exact ⟨.supplied c, .supplied ht hc, hcode⟩
  | junction op es =>
      obtain ⟨hes, cs, hcs, hcode⟩ := exists_of_junction h
      exact ⟨.junction op cs, .junction hes hcs, hcode⟩
  | not e => exact exists_negation hinner h
  | null | «omit» | list _ _ | dict _ _ | item _ _ _ | itemOr _ _ _ _ | var _ _ | field _ _
  | prop _ _ _ | call _ _ _ _ | apply _ _ _ _ | only _ _ | length _ | await _ | perTarget _ =>
      exact ⟨.operand r, .operand rfl rfl h, rfl⟩

end Expr

/-- An expression that can be written is written in a form. -/
theorem Form.exists_writes (e : Expr) : ∀ {r : Code}, e.render t = .ok r →
    ∃ f : Form, Writes t e f ∧ f.code t = r := by
  fun_induction Expr.source t e with
  | case1 e inner h ih =>
      intro r hr
      rcases Expr.eq_of_inner? h with rfl | ⟨ty, rfl⟩ | ⟨rfl, rfl⟩
      · have hinner : inner.render t = .ok r := by cases t <;> exact hr
        obtain ⟨f, hf, hcode⟩ := ih hinner
        exact ⟨f, .doubleNot hf, hcode⟩
      · obtain ⟨s, v, hs, hv, hcode⟩ := Expr.exists_of_cast hr
        obtain ⟨f, hf, hfcode⟩ := ih hv
        exact ⟨.cast s f, .cast hs hf, hcode f hfcode⟩
      · obtain ⟨v, hv, rfl⟩ := Expr.exists_of_loneValue hr
        obtain ⟨f, hf, hfcode⟩ := ih hv
        exact ⟨.group f, .loneValue rfl hf, by rw [code, hfcode]⟩
  | case2 e h => exact Expr.exists_root h

namespace Form.Writes

variable {e : Expr} {f : Form}

/-- The root of the source decides of which type the value is. -/
theorem isOf_eval (h : Writes t e f) {ty : Ty} (hty : (e.source t).rootType? = some ty)
    (m : Machine) : (f.eval m).IsOf ty := by
  induction h generalizing ty with
  | literal l =>
      rw [Expr.source_of_none rfl] at hty
      cases hty
      exact l.isOf_value
  | doubleNot _ ih =>
      rw [Expr.source_of_some rfl] at hty
      exact ih hty
  | cast _ _ ih =>
      rw [Expr.source_of_some rfl] at hty
      exact ih hty
  | loneValue ht _ ih =>
      rw [Expr.source_of_some (Expr.inner?_loneValue ht)] at hty
      exact ih hty
  | compare | notCompare | isNull | notIsNull | isType | supplied =>
      rw [Expr.source_of_none rfl] at hty
      cases hty
      exact ⟨_, rfl⟩
  | not hfolds _ =>
      rw [Expr.source_of_none (Expr.inner?_not hfolds)] at hty
      cases hty
      exact ⟨_, rfl⟩
  | @junction op _ _ _ _ =>
      rw [Expr.source_of_none rfl] at hty
      cases hty
      cases op <;> exact ⟨_, rfl⟩
  | text hinner _ =>
      rw [Expr.source_of_none hinner] at hty
      cases hty
      exact ⟨_, rfl⟩
  | operand hroot hinner _ =>
      rw [Expr.source_of_none hinner, hroot] at hty
      cases hty

/-- If the root of the source makes no value of its own, the value is that of the source. -/
theorem exists_operand (h : Writes t e f) (hroot : (e.source t).rootType? = none) :
    ∃ c, (e.source t).render t = .ok c ∧ ∀ m : Machine, f.eval m = m.value c := by
  induction h with
  | doubleNot _ ih =>
      rw [Expr.source_of_some rfl] at hroot ⊢
      exact ih hroot
  | cast _ _ ih =>
      rw [Expr.source_of_some rfl] at hroot ⊢
      exact ih hroot
  | loneValue ht _ ih =>
      rw [Expr.source_of_some (Expr.inner?_loneValue ht)] at hroot ⊢
      exact ih hroot
  | operand _ hinner hc =>
      rw [Expr.source_of_none hinner]
      exact ⟨_, hc, fun _ => rfl⟩
  | literal | compare | notCompare | isNull | notIsNull | isType | supplied | junction =>
      rw [Expr.source_of_none rfl] at hroot
      cases hroot
  | not hfolds _ =>
      rw [Expr.source_of_none (Expr.inner?_not hfolds)] at hroot
      cases hroot
  | text hinner _ =>
      rw [Expr.source_of_none hinner] at hroot
      cases hroot

end Form.Writes

/-- A machine on which all code has one value. -/
def Machine.constant (v : Value) : Machine where
  value _ := v
  compare _ _ _ _ := false
  isTrue _ := false
  hasType _ _ := false
  join _ := ""

/-- **Whether the value of the code is of the static type**, for every test, logical combination,
negation and text that can be written, whatever its operands are. The value is of this type on every
machine exactly if the source of the expression makes one of it: the expression itself, unless it
is a negation of a negation or, in PHP, a text of a single value. Otherwise the source can be an
operand such as a variable, and the value is then whatever that has. -/
theorem Form.eval_isOf_iff {e : Expr} {ty : Ty} (hty : e.operationType? = some ty) {r : Code}
    (h : e.render t = .ok r) :
    e.typeOf = .ok ty ∧ ∃ f : Form, Writes t e f ∧ f.code t = r ∧
      ((∀ m : Machine, (f.eval m).IsOf ty) ↔ (e.source t).rootType? = some ty) ∧
      (e.inner? t = none → (e.source t).rootType? = some ty) ∧
      ((e.source t).rootType? = none →
        ∃ c, (e.source t).render t = .ok c ∧ ∀ m : Machine, f.eval m = m.value c) := by
  obtain ⟨f, hf, hcode⟩ := exists_writes e h
  refine ⟨Expr.typeOf_of_operationType? hty, f, hf, hcode, ⟨fun hvalue => ?_, fun hroot m =>
    hf.isOf_eval hroot m⟩, fun hinner => ?_, hf.exists_operand⟩
  · cases hroot : (e.source t).rootType? with
    | none =>
        -- An operand can be null, which is of no such type.
        obtain ⟨c, -, heval⟩ := hf.exists_operand hroot
        have hnull := hvalue (.constant .null)
        rw [heval] at hnull
        exact absurd hnull Value.not_isOf_null
    | some ty' =>
        have hmade := hf.isOf_eval hroot (.constant .null)
        rw [Value.eq_of_isOf hmade (hvalue (.constant .null))]
  · rw [Expr.source_of_none hinner]
    exact Expr.rootType?_of_operationType? hty

/-- A negation of three is one, whatever its operand is. -/
theorem Form.eval_isOf_of_negations :
    let e : Expr := .not (.not (.not (.var "x" none)))
    e.operationType? = some .bool ∧ e.render .php = .ok ⟨"!$x", .product⟩ ∧
      ∃ f : Form, f.code .php = ⟨"!$x", .product⟩ ∧ ∀ m : Machine, (f.eval m).IsOf .bool := by
  intro e
  have hty : e.operationType? = some .bool := rfl
  have hrender : e.render .php = .ok ⟨"!$x", .product⟩ := rfl
  obtain ⟨-, f, -, hcode, hiff, -, -⟩ := eval_isOf_iff hty hrender
  refine ⟨hty, hrender, f, hcode, hiff.2 ?_⟩
  have houter : e.inner? .php = some (.not (.var "x" none)) := rfl
  rw [Expr.source_of_some houter, Expr.source_of_none rfl]
  rfl

/-- A negation of a negation is declared as a truth value, but is the code of a variable, and a text
of a single value is declared as a text in PHP. -/
theorem Form.eval_of_variable :
    let x : Expr := .var "x" none
    let m : Machine := .constant (.int 5)
    (Expr.not (.not x)).typeOf = .ok .bool ∧
      (Expr.not (.not x)).render .typescript = .ok ⟨"x", .literal⟩ ∧
      (Form.operand ⟨"x", .literal⟩).eval m = .int 5 ∧ ¬(Value.int 5).IsOf .bool ∧
      (Assignment.declare "b" (some .bool) (some (.not (.not x)))).toTypeScript =
        .ok [.line "let b: boolean = x;"] ∧
      (Expr.text [.value x]).typeOf = .ok .str ∧
      (Expr.text [.value x]).render .php = .ok ⟨"$x", .product⟩ ∧
      (Form.group (.operand ⟨"$x", .literal⟩)).eval m = .int 5 ∧ ¬(Value.int 5).IsOf .str :=
  ⟨rfl, rfl, rfl, nofun, rfl, rfl, rfl, rfl, nofun⟩

end Polyglot
