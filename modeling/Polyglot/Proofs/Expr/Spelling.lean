import Polyglot.Proofs.Expr.Core
import Polyglot.Proofs.Expr.Lists
import Polyglot.Proofs.Expr.Token
import Polyglot.Proofs.Outcome

/-!
# Spelling of core expressions

The tokens of a core expression, in any output language, and the proof that every writer writes
exactly these tokens. What differs between the languages is small: the sigil of variables, the words
of constants, and the tokens around a logical combination.

* `Expr.tokens` : the tokens of an expression.
* `Expr.isShown` : every core expression is written, as its tokens.
-/

set_option autoImplicit false

namespace Polyglot

open Token Outcome

/-! ## Tokens -/

/-- The word of a truth value. -/
def Target.boolWord : Target → Bool → String
  | .python, true => "True"
  | .python, false => "False"
  | _, true => "true"
  | _, false => "false"

/-- The word of the null constant. -/
def Target.nullWord : Target → String
  | .python => "None"
  | _ => "null"

/-- The tokens in front of the name of a variable. -/
def Target.sigil : Target → List Token
  | .php => [.mark .sigil]
  | _ => []

/-- The tokens in front of the operands of a logical combination. -/
def Target.junctionOpening : Target → List Token
  | .python => [.word "bool", .mark .opens]
  | .typescript => [.mark .negation, .mark .negation, .mark .opens]
  | .php => []

/-- The tokens behind the operands of a logical combination. -/
def Target.junctionClosing : Target → List Token
  | .php => []
  | _ => [.mark .closes]

/-- The token of a constant. -/
def Literal.token (t : Target) : Literal → Token
  | .bool b => .word (t.boolWord b)
  | .int n => .number n
  | .str s => .text s

/-- Tokens in parentheses, if they are asked for. -/
def Token.grouped (parenthesized : Bool) (ts : List Token) : List Token :=
  if parenthesized then .mark .opens :: (ts ++ [.mark .closes]) else ts

namespace Expr

/-- Whether the code of the expression is parenthesized inside other code. -/
def isLoose (t : Target) : Expr → Bool
  | .compare _ _ _ _ | .not _ => true
  | .junction _ _ => t ≠ .python
  | _ => false

mutual

/-- The tokens of a core expression. -/
def tokens (t : Target) : Expr → List Token
  | .literal value => [value.token t]
  | .null => [.word t.nullWord]
  | .var name _ => t.sigil ++ [.word name]
  | .prop owner name _ =>
    grouped (owner.isLoose t) (owner.tokens t) ++ [.mark .selector, .word name]
  | .item _ target key =>
    grouped (target.isLoose t) (target.tokens t) ++
      .mark .opensList :: (key.tokens t ++ [.mark .closesList])
  | .list items _ =>
    .mark .opensList :: ([Token.mark .comma].intercalate (tokensAll t items) ++
      [.mark .closesList])
  | .call callee _ args _ =>
    .word callee :: .mark .opens :: ([Token.mark .comma].intercalate (tokensAll t args) ++
      [.mark .closes])
  | .apply callee _ args _ =>
    grouped (callee.isLoose t) (callee.tokens t) ++
      .mark .opens :: ([Token.mark .comma].intercalate (tokensAll t args) ++ [.mark .closes])
  | .compare op negated left right =>
    grouped (left.isLoose t) (left.tokens t) ++
      .mark (.comparison op negated) :: grouped (right.isLoose t) (right.tokens t)
  | .not operand => .mark .negation :: grouped (operand.isLoose t) (operand.tokens t)
  | .junction op operands =>
    t.junctionOpening ++ ([Token.mark (.junction op)].intercalate (operandsAll t operands) ++
      t.junctionClosing)
  | _ => []

def tokensAll (t : Target) : List Expr → List (List Token)
  | [] => []
  | e :: es => e.tokens t :: tokensAll t es

def operandsAll (t : Target) : List Expr → List (List Token)
  | [] => []
  | e :: es => grouped (e.isLoose t) (e.tokens t) :: operandsAll t es

end

/-- The tokens of an expression as an operand or as the base of a selector. -/
def operand (t : Target) (e : Expr) : List Token := grouped (e.isLoose t) (e.tokens t)

theorem tokensAll_eq_map (t : Target) (es : List Expr) : tokensAll t es = es.map (tokens t) := by
  induction es with
  | nil => rfl
  | cons e es ih => rw [tokensAll, List.map_cons, ih]

theorem operandsAll_eq_map (t : Target) (es : List Expr) :
    operandsAll t es = es.map (operand t) := by
  induction es with
  | nil => rfl
  | cons e es ih => rw [operandsAll, List.map_cons, ih, operand]

/-! ## What the writers write -/

/-- Code that shows the tokens of an expression, with a tag that is loose if the expression is. -/
structure Shows (t : Target) (e : Expr) (c : Code) : Prop where
  text : c.text.toList = chars t (e.tokens t)
  tag : decide (Precedence.access.rank < c.tag.rank) = e.isLoose t

theorem Shows.operand {t : Target} {e : Expr} {c : Code} (h : Shows t e c) :
    c.operand.toList = chars t (e.operand t) := by
  have htag := h.tag
  rw [← Code.base_eq_operand, Code.base, Expr.operand, grouped, ← htag]
  by_cases hr : Precedence.access.rank < c.tag.rank
  · simp [hr, Code.parenthesized, h.text, spelled, Mark.spelled, Mark.text]
  · simp [hr, h.text]

theorem Shows.base {t : Target} {e : Expr} {c : Code} (h : Shows t e c) :
    c.base.toList = chars t (e.operand t) := h.operand

theorem chars_intercalate (t : Target) (m : Mark) (tss : List (List Token)) :
    chars t ([Token.mark m].intercalate tss) = (m.spelled t).intercalate (tss.map (chars t)) := by
  induction tss with
  | nil => rfl
  | cons ts tss ih =>
      cases tss with
      | nil => simp
      | cons ts' tss =>
          simp only [List.map_cons] at ih ⊢
          rw [List.intercalate_cons_cons, List.intercalate_cons_cons, chars_append, chars_append,
            ih]
          simp [spelled]

/-- Codes with commas between them show the expressions with commas between them. -/
theorem toList_commas {t : Target} {es : List Expr} {cs : List Code}
    (h : List.Forall₂ (Shows t) es cs) :
    (", ".intercalate (cs.map Code.text)).toList =
      chars t ([Token.mark .comma].intercalate (tokensAll t es)) := by
  have hmap : (cs.map Code.text).map String.toList = (es.map (tokens t)).map (chars t) := by
    induction h with
    | nil => rfl
    | cons hc _ ih => simp only [List.map_cons, hc.text, ih]
  rw [String.toList_intercalate, hmap, tokensAll_eq_map, chars_intercalate]
  rfl

/-- Operands with an operator between them show the expressions with that operator between them. -/
theorem toList_joined {t : Target} (op : Junction) {es : List Expr} {cs : List Code}
    (h : List.Forall₂ (Shows t) es cs) :
    ((Mark.joiner t op).intercalate (cs.map Code.operand)).toList =
      chars t ([Token.mark (.junction op)].intercalate (operandsAll t es)) := by
  have hmap : (cs.map Code.operand).map String.toList = (es.map (operand t)).map (chars t) := by
    induction h with
    | nil => rfl
    | cons hc _ ih => simp only [List.map_cons, hc.operand, ih]
  rw [String.toList_intercalate, hmap, operandsAll_eq_map, chars_intercalate]
  rfl

/-- Whether a language writes the expression, and as its tokens. -/
def IsShown (t : Target) (e : Expr) : Prop := ∃ c, e.render t = .ok c ∧ Shows t e c

mutual

/-- Every core expression is written, as its tokens. -/
theorem isShown (t : Target) : ∀ e : Expr, e.IsCore → IsShown t e
  | .literal value, _ => by
      cases value with
      | bool b => cases t <;> cases b <;> exact ⟨_, rfl, ⟨rfl, rfl⟩⟩
      | int n =>
          refine ⟨⟨n.repr, .literal⟩, ?_, ⟨by simp [tokens, Literal.token, spelled], rfl⟩⟩
          cases t <;> rfl
      | str s =>
          cases t with
          | php => exact ⟨_, rfl, ⟨by simp [Literal.toPhp, Text.SingleQuoted.encode, tokens,
              Literal.token, spelled], rfl⟩⟩
          | python => exact ⟨_, rfl, ⟨by simp [Literal.toPython, Text.Quoted.encode, tokens,
              Literal.token, spelled], rfl⟩⟩
          | typescript => exact ⟨_, rfl, ⟨by simp [Literal.toTypeScript, Text.Quoted.encode, tokens,
              Literal.token, spelled], rfl⟩⟩
  | .null, _ => by cases t <;> exact ⟨_, rfl, ⟨rfl, rfl⟩⟩
  | .var name _, _ => by
      cases t <;> exact ⟨_, rfl, ⟨by simp [tokens, Target.sigil, spelled, Mark.spelled, Mark.text],
        rfl⟩⟩
  | .prop owner name _, h => by
      obtain ⟨o, ho, hos⟩ := isShown t owner h.1
      refine ⟨⟨o.base ++ Mark.text t .selector ++ name, .access⟩, ?_, ⟨?_, rfl⟩⟩
      · cases t <;> simp_all [render, toPython, toTypeScript, toPhp, Mark.text]
      · simp [hos.base, tokens, operand, spelled, Mark.spelled]
  | .item .position target key, h => by
      obtain ⟨o, ho, hos⟩ := isShown t target h.1
      obtain ⟨k, hk, hks⟩ := isShown t key h.2
      refine ⟨⟨o.base ++ "[" ++ k.text ++ "]", .access⟩, ?_, ⟨?_, rfl⟩⟩
      · cases t <;> simp_all [render, toPython, toTypeScript, toPhp]
      · simp [hos.base, hks.text, tokens, operand, spelled, Mark.spelled, Mark.text]
  | .list items _, h => by
      obtain ⟨cs, hcs, hs⟩ := exists_mapM_eq_ok (areShown t items h)
      refine ⟨⟨"[" ++ ", ".intercalate (cs.map Code.text) ++ "]", .literal⟩, ?_, ⟨?_, rfl⟩⟩
      · cases t <;> simp_all [render, toPython, toTypeScript, toPhp, toPythonAll_eq_mapM,
          toTypeScriptAll_eq_mapM, toPhpAll_eq_mapM]
      · simp [toList_commas hs, tokens, spelled, Mark.spelled, Mark.text]
  | .call callee false args [], h => by
      obtain ⟨cs, hcs, hs⟩ := exists_mapM_eq_ok (areShown t args h.2)
      refine ⟨⟨Code.callText callee (cs.map Code.text), .access⟩, ?_, ⟨?_, rfl⟩⟩
      · cases t <;> simp_all [render, toPython, toTypeScript, toPhp, toPythonAll_eq_mapM,
          toTypeScriptAll_eq_mapM, toPhpAll_eq_mapM, toPythonNamed, Code.callText,
          Code.typeScriptCall, Code.phpCall]
      · simp [Code.callText, toList_commas hs, tokens, spelled, Mark.spelled, Mark.text]
  | .apply (.prop owner name ty) false args [], h => by
      obtain ⟨o, ho, hos⟩ := isShown t owner h.1
      obtain ⟨cs, hcs, hs⟩ := exists_mapM_eq_ok (areShown t args h.2.2)
      refine ⟨⟨Code.callText (o.base ++ Mark.text t .selector ++ name) (cs.map Code.text), .access⟩,
        ?_, ⟨?_, rfl⟩⟩
      · have hbase (s : String) : (Code.mk s .access).base = s := rfl
        cases t <;> simp_all [render, toPython, toTypeScript, toPhp, toPythonAll_eq_mapM,
          toTypeScriptAll_eq_mapM, toPhpAll_eq_mapM, toPythonNamed, Code.callText,
          Code.typeScriptCall, Code.phpCall, Mark.text]
      · simp [Code.callText, toList_commas hs, hos.base, tokens, operand, isLoose, grouped, spelled,
          Mark.spelled, Mark.text]
  | .compare op negated left right, h => by
      obtain ⟨l, hl, hls⟩ := isShown t left h.1
      obtain ⟨r, hr, hrs⟩ := isShown t right h.2
      refine ⟨⟨l.operand ++ Mark.text t (.comparison op negated) ++ r.operand, .product⟩, ?_,
        ⟨?_, rfl⟩⟩
      · cases t <;> simp_all [render, toPython, toTypeScript, toPhp, Comparison.toPython,
          Comparison.toTypeScript, Comparison.toPhp, Mark.text, Mark.operator, String.append_assoc]
      · simp [hls.operand, hrs.operand, tokens, operand, spelled, Mark.spelled]
  | .junction op (first :: second :: rest), h => by
      obtain ⟨a, ha, hsa⟩ := isShown t first h.1
      obtain ⟨b, hb, hsb⟩ := isShown t second h.2.1
      obtain ⟨cs, hcs, hs⟩ := exists_mapM_eq_ok (areShown t rest h.2.2)
      have hjoined := toList_joined op (.cons hsa (.cons hsb hs))
      cases t with
      | python =>
          refine ⟨⟨op.toPython (a :: b :: cs), .access⟩, ?_, ⟨?_, rfl⟩⟩
          · simp_all [render, toPython, toPythonAll, toPythonAll_eq_mapM]
          · rw [Junction.toPython, String.toList_append, String.toList_append, ← Mark.joiner_python,
              hjoined]
            · simp [tokens, Target.junctionOpening, Target.junctionClosing, spelled, Mark.spelled,
                Mark.text]
            · simp
      | typescript =>
          refine ⟨⟨op.toTypeScript (a :: b :: cs), .product⟩, ?_, ⟨?_, rfl⟩⟩
          · simp_all [render, toTypeScript, toTypeScriptAll, toTypeScriptAll_eq_mapM]
          · rw [Junction.toTypeScript, String.toList_append, String.toList_append,
              ← Mark.joiner_typescript, hjoined]
            · simp [tokens, Target.junctionOpening, Target.junctionClosing, spelled, Mark.spelled,
                Mark.text]
            · simp
      | php =>
          refine ⟨⟨op.toPhp (a :: b :: cs), .product⟩, ?_, ⟨?_, rfl⟩⟩
          · simp_all [render, toPhp, toPhpAll, toPhpAll_eq_mapM]
          · rw [Junction.toPhp, ← Mark.joiner_php]
            · have hbase : Code.base = Code.operand := rfl
              rw [hbase, hjoined]
              simp [tokens, Target.junctionOpening, Target.junctionClosing]
            · simp
  | .not operand, h => by
      obtain ⟨o, ho, hos⟩ := isShown t operand h.2
      refine ⟨⟨Mark.text t .negation ++ o.operand, .product⟩, ?_, ⟨?_, rfl⟩⟩
      · cases t <;> simp_all [render, toPython_not h.1, toTypeScript_not h.1, toPhp_not h.1,
          Mark.text]
      · simp [hos.operand, tokens, Expr.operand, spelled, Mark.spelled]

theorem areShown (t : Target) : ∀ es : List Expr, AllCore es → ∀ e ∈ es, IsShown t e
  | [], _, _, h => by cases h
  | e :: es, h, e', he' => by
      rcases List.mem_cons.1 he' with heq | he'
      · exact heq ▸ isShown t e h.1
      · exact areShown t es h.2 e' he'

end

end Expr

end Polyglot
