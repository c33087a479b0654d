import Polyglot.Expr.Php
import Polyglot.Proofs.Expr.Lists
import Polyglot.Proofs.Expr.Negation
import Polyglot.Proofs.Literals.Context
import Polyglot.Proofs.Uniform

/-!
# Literals in expressions

In PHP the code of an expression around a text has the literal of the text at a fixed place. What
stands around the literal does not depend on the text, and neither does whether there is code.

* `HasLiteral`, `Code.HasLiteral` : the literal at a fixed place in a text or in code.
* `Expr.Context.uniform_toPhp` : **expressions around a text.**
-/

set_option autoImplicit false

namespace Polyglot

open Outcome Text

/-! ## Texts and codes -/

/-- The literal of a text, with the same text before and after it for all texts. -/
def HasLiteral (T : String → String) : Prop :=
  ∃ before after, ∀ s, T s = before ++ SingleQuoted.encode s ++ after

/-- Code with the literal of a text. -/
def Code.HasLiteral (C : String → Code) : Prop :=
  ∃ T tag, Polyglot.HasLiteral T ∧ ∀ s, C s = ⟨T s, tag⟩

namespace HasLiteral

variable {T : String → String}

theorem encode : HasLiteral SingleQuoted.encode :=
  ⟨"", "", fun s => by rw [String.empty_append, String.append_empty]⟩

theorem append_left (h : HasLiteral T) (a : String) : HasLiteral fun s => a ++ T s := by
  obtain ⟨before, after, hT⟩ := h
  refine ⟨a ++ before, after, fun s => ?_⟩
  simp only [hT, String.append_assoc]

theorem append_right (h : HasLiteral T) (a : String) : HasLiteral fun s => T s ++ a := by
  obtain ⟨before, after, hT⟩ := h
  refine ⟨before, after ++ a, fun s => ?_⟩
  simp only [hT, String.append_assoc]

/-- One of several texts between separators. -/
theorem intercalate (h : HasLiteral T) (sep : String) (before after : List String) :
    HasLiteral fun s => sep.intercalate (before ++ T s :: after) := by
  have hrest : HasLiteral fun s => sep.intercalate (T s :: after) := by
    cases after with
    | nil => simpa only [String.intercalate_singleton] using h
    | cons b bs =>
        simp only [String.intercalate_cons_cons, String.append_assoc]
        exact h.append_right _
  induction before with
  | nil => exact hrest
  | cons a as ih =>
      have hne (s : String) : as ++ T s :: after ≠ [] := by simp
      simp only [List.cons_append, String.intercalate_cons_of_ne_nil (hne _)]
      exact ih.append_left _

theorem intercalate_of_atMember {Ts : String → List String} (h : AtMember HasLiteral Ts)
    (sep : String) : HasLiteral fun s => sep.intercalate (Ts s) := by
  obtain ⟨before, T, after, hT, hTs⟩ := h
  simp only [hTs]
  exact hT.intercalate sep before after

/-- The same if the texts are made from values. -/
theorem intercalate_map {α : Type} {P : (String → α) → Prop} {as : String → List α}
    (has : AtMember P as) {text : α → String} (htext : ∀ a, P a → HasLiteral fun s => text (a s))
    (sep : String) : HasLiteral fun s => sep.intercalate ((as s).map text) := by
  obtain ⟨before, a, after, ha, has⟩ := has
  simp only [has, List.map_append, List.map_cons]
  exact (htext a ha).intercalate sep _ _

end HasLiteral

namespace Code.HasLiteral

variable {C : String → Code}

theorem mk {T : String → String} (h : Polyglot.HasLiteral T) (tag : Precedence) :
    HasLiteral fun s => ⟨T s, tag⟩ := ⟨T, tag, h, fun _ => rfl⟩

theorem text (h : HasLiteral C) : Polyglot.HasLiteral fun s => (C s).text := by
  obtain ⟨T, tag, hT, hC⟩ := h
  simpa only [hC] using hT

theorem base (h : HasLiteral C) : Polyglot.HasLiteral fun s => (C s).base := by
  obtain ⟨T, tag, hT, hC⟩ := h
  simp only [hC, Code.base]
  by_cases htag : Precedence.access.rank < tag.rank
  · simp only [if_pos htag]
    exact (hT.append_left "(").append_right ")"
  · simp only [if_neg htag]
    exact hT

theorem operand (h : HasLiteral C) : Polyglot.HasLiteral fun s => (C s).operand := by
  simp only [← Code.base_eq_operand]
  exact h.base

end Code.HasLiteral

/-! ### Operators -/

namespace Code.HasLiteral

variable {C : String → Code}

theorem phpIsNull (h : HasLiteral C) (negated : Bool) :
    HasLiteral fun s => (C s).phpIsNull negated :=
  .mk (h.base.append_right _) _

theorem compareLeft (h : HasLiteral C) (op : Comparison) (negated : Bool) (right : Code) :
    HasLiteral fun s => op.toPhp negated (C s) right :=
  .mk ((((h.operand.append_right _).append_right _).append_right _).append_right _) _

theorem compareRight (h : HasLiteral C) (op : Comparison) (negated : Bool) (left : Code) :
    HasLiteral fun s => op.toPhp negated left (C s) :=
  .mk (h.operand.append_left _) _

/-- The literal in an argument of a call. -/
theorem phpArgument {Cs : String → List Code} (h : AtMember HasLiteral Cs) (callee : String)
    (construct : Bool) : HasLiteral fun s => .phpCall callee construct (Cs s) := by
  have hcall : Polyglot.HasLiteral fun s =>
      callee ++ "(" ++ ", ".intercalate ((Cs s).map Code.text) ++ ")" :=
    ((Polyglot.HasLiteral.intercalate_map h (fun _ => text) ", ").append_left _).append_right _
  cases construct
  · exact .mk hcall _
  · exact .mk (hcall.append_left "new ") _

/-- The literal in what is called. -/
theorem phpCallee (h : HasLiteral C) (construct : Bool) (args : List Code) :
    HasLiteral fun s => .phpCall (C s).base construct args := by
  have hcall : Polyglot.HasLiteral fun s =>
      (C s).base ++ "(" ++ ", ".intercalate (args.map Code.text) ++ ")" :=
    ((h.base.append_right _).append_right _).append_right _
  cases construct
  · exact .mk hcall _
  · exact .mk (hcall.append_left "new ") _

theorem phpJunction {Cs : String → List Code} (h : AtMember HasLiteral Cs) (op : Junction) :
    Polyglot.HasLiteral fun s => op.toPhp (Cs s) := by
  have hall := Polyglot.HasLiteral.intercalate_map h (fun _ => base) op.phpOperator
  obtain ⟨before, C, after, hC, hCs⟩ := h
  simp only [hCs] at hall ⊢
  cases before with
  | nil =>
      cases after with
      | nil => exact hC.base.append_left "(bool)"
      | cons c cs => exact hall
  | cons c cs => cases cs <;> exact hall

end Code.HasLiteral

/-! ## Expressions -/

namespace Expr

variable {x : String → Expr}

theorem toPhp_text {ps : List Part} (h : ps ≠ []) : (text ps).toPhp = (do
    let ss ← ps.mapM Part.toPhp
    return ⟨" . ".intercalate ss, .product⟩) := by
  rw [← Part.toPhpAll_eq_mapM]
  cases ps with
  | nil => exact absurd rfl h
  | cons p ps => rfl

theorem toPhp_junction (op : Junction) {es : List Expr} (h : es ≠ []) :
    (junction op es).toPhp = (do
      let cs ← es.mapM toPhp
      return ⟨op.toPhp cs, .product⟩) := by
  rw [← toPhpAll_eq_mapM]
  cases es with
  | nil => exact absurd rfl h
  | cons e es => rfl

theorem Site.uniform_toPhp (site : Site) :
    Uniform Code.HasLiteral fun s => (site.fill s).toPhp := by
  cases site with
  | constant => exact .ok (.mk .encode _)
  | key before value after valueType =>
      have hpair : Uniform (fun g : String → String × Code => ∃ c, ∀ s, g s = (s, c))
          fun s => namedToPhp (s, value) := by
        simp only [namedToPhp]
        exact .const_bind _ fun c => .pure ⟨c, fun _ => rfl⟩
      simp only [fill, toPhp, toPhpNamed_eq_mapM]
      refine .bind (hpair.mapM before after) fun es hes => .pure (.mk ?_ _)
      refine (HasLiteral.append_left ?_ "[").append_right "]"
      refine .intercalate_map hes (fun g hg => ?_) ", "
      obtain ⟨c, hg⟩ := hg
      simp only [hg]
      exact (HasLiteral.encode.append_right _).append_right _
  | chars before after =>
      have hchars : Uniform HasLiteral fun s => (Part.chars s).toPhp := .ok .encode
      have hne (s : String) : before ++ Part.chars s :: after ≠ [] := by simp
      simp only [fill, toPhp_text (hne _)]
      exact .bind (hchars.mapM before after) fun ss hss =>
        .pure (.mk (HasLiteral.intercalate_of_atMember hss " . ") _)

/-- Expressions with the literal of a text, negated or not. -/
def HoldLiteral (x : String → Expr) : Prop :=
  Uniform Code.HasLiteral (fun s => (x s).toPhp) ∧
    Uniform Code.HasLiteral fun s => (Expr.not (x s)).toPhp

/-- Where a negation is not folded, it is written in front of the expression. -/
theorem HoldLiteral.of_uniform (hfolds : ∀ s, (x s).foldsNegation = false)
    (h : Uniform Code.HasLiteral fun s => (x s).toPhp) : HoldLiteral x := by
  refine ⟨h, ?_⟩
  simp only [toPhp_not (hfolds _)]
  exact .bind h fun C hC => .pure (.mk (hC.operand.append_left "!") _)

/-- One of several expressions. -/
theorem HoldLiteral.mapM (h : HoldLiteral x) (before after : List Expr) :
    Uniform (AtMember Code.HasLiteral) fun s => (before ++ x s :: after).mapM toPhp :=
  h.1.mapM before after

/-- A node around expressions with the literal. -/
theorem Layer.holdLiteral (h : HoldLiteral x) (layer : Layer) :
    HoldLiteral fun s => layer.fill (x s) := by
  cases layer with
  | list before after inner =>
      refine .of_uniform (fun _ => rfl) ?_
      simp only [fill, toPhp, toPhpAll_eq_mapM]
      refine .bind (h.mapM before after) fun cs hcs => .pure (.mk ?_ _)
      refine (HasLiteral.append_left ?_ "[").append_right "]"
      exact .intercalate_map hcs (fun _ => Code.HasLiteral.text) ", "
  | dict before name after valueType =>
      have hpair : Uniform (fun g : String → String × Code =>
          ∃ C, Code.HasLiteral C ∧ ∀ s, g s = (name, C s)) fun s => namedToPhp (name, x s) := by
        simp only [namedToPhp]
        exact .bind h.1 fun C hC => .pure ⟨C, hC, fun _ => rfl⟩
      refine .of_uniform (fun _ => rfl) ?_
      simp only [fill, toPhp, toPhpNamed_eq_mapM]
      refine .bind (hpair.mapM before after) fun es hes => .pure (.mk ?_ _)
      refine (HasLiteral.append_left ?_ "[").append_right "]"
      refine .intercalate_map hes (fun g hg => ?_) ", "
      obtain ⟨C, hC, hg⟩ := hg
      simp only [hg]
      exact hC.text.append_left _
  | cast ty => exact .of_uniform (fun _ => rfl) h.1
  | item selector key =>
      refine .of_uniform (fun _ => rfl) (.bind h.1 fun C hC => .const_bind _ fun k => ?_)
      exact .pure (.mk (((hC.base.append_right _).append_right _).append_right _) _)
  | itemAt selector target =>
      refine .of_uniform (fun _ => rfl) (.const_bind _ fun t => .bind h.1 fun C hC => ?_)
      exact .pure (.mk ((hC.text.append_left _).append_right _) _)
  | itemOr selector key other =>
      refine .of_uniform (fun _ => rfl) (.bind h.1 fun C hC => .const_bind _ fun k =>
        .const_bind _ fun f => ?_)
      have htext := ((hC.base.append_right "[").append_right k.text).append_right "] ?? "
      exact .pure (.mk (htext.append_right f.operand) _)
  | itemOrAt selector target other =>
      refine .of_uniform (fun _ => rfl) (.const_bind _ fun t => .bind h.1 fun C hC =>
        .const_bind _ fun f => ?_)
      exact .pure (.mk (((hC.text.append_left _).append_right _).append_right _) _)
  | fallback selector target key =>
      refine .of_uniform (fun _ => rfl) (.const_bind _ fun t => .const_bind _ fun k =>
        .bind h.1 fun C hC => ?_)
      exact .pure (.mk (hC.operand.append_left _) _)
  | prop name ty =>
      refine .of_uniform (fun _ => rfl) (.bind h.1 fun C hC => ?_)
      exact .pure (.mk ((hC.base.append_right _).append_right _) _)
  | argument callee construct before after named =>
      refine .of_uniform (fun _ => rfl) ?_
      cases named with
      | nil =>
          simp only [fill, toPhp, toPhpAll_eq_mapM]
          exact .bind (h.mapM before after) fun cs hcs => .pure (.phpArgument hcs callee construct)
      | cons n ns => exact .error _
  | namedArgument callee construct args before name after =>
      refine .of_uniform (fun _ => rfl) ?_
      cases before <;> exact .error _
  | apply construct args named =>
      refine .of_uniform (fun _ => rfl) ?_
      cases named with
      | nil => exact .const_bind _ fun cs => .bind h.1 fun C hC => .pure (hC.phpCallee construct cs)
      | cons n ns => exact .error _
  | applyArgument callee construct before after named =>
      refine .of_uniform (fun _ => rfl) ?_
      cases named with
      | nil =>
          simp only [fill, toPhp, toPhpAll_eq_mapM]
          exact .bind (h.mapM before after) fun cs hcs => .const_bind _ fun c =>
            .pure (.phpArgument hcs c.base construct)
      | cons n ns => exact .error _
  | applyNamedArgument callee construct args before name after =>
      refine .of_uniform (fun _ => rfl) ?_
      cases before <;> exact .error _
  | text before after =>
      have hpart : Uniform HasLiteral fun s => (Part.value (x s)).toPhp :=
        .bind h.1 fun C hC => .pure hC.operand
      have hne (s : String) : before ++ Part.value (x s) :: after ≠ [] := by simp
      refine .of_uniform (fun _ => rfl) ?_
      simp only [fill, toPhp_text (hne _)]
      exact .bind (hpart.mapM before after) fun ss hss =>
        .pure (.mk (HasLiteral.intercalate_of_atMember hss " . ") _)
  | junction op before after =>
      have hne (s : String) : before ++ x s :: after ≠ [] := by simp
      refine .of_uniform (fun _ => rfl) ?_
      simp only [fill, toPhp_junction op (hne _)]
      exact .bind (h.mapM before after) fun cs hcs =>
        .pure (.mk (Code.HasLiteral.phpJunction hcs op) _)
  | not => exact ⟨h.2, h.1⟩
  | length =>
      refine .of_uniform (fun _ => rfl) (.bind h.1 fun C hC => ?_)
      exact .pure (.mk ((hC.text.append_left _).append_right _) _)
  | isNull negated =>
      exact ⟨.bind h.1 fun C hC => .pure (hC.phpIsNull negated),
        .bind h.1 fun C hC => .pure (hC.phpIsNull !negated)⟩
  | compareLeft op negated right =>
      exact ⟨.bind h.1 fun C hC => .const_bind _ fun r => .pure (hC.compareLeft op negated r),
        .bind h.1 fun C hC => .const_bind _ fun r => .pure (hC.compareLeft op (!negated) r)⟩
  | compareRight op negated left =>
      exact ⟨.const_bind _ fun l => .bind h.1 fun C hC => .pure (hC.compareRight op negated l),
        .const_bind _ fun l => .bind h.1 fun C hC => .pure (hC.compareRight op (!negated) l)⟩
  | isType test =>
      refine .of_uniform (fun _ => rfl) (.bind h.1 fun C hC => ?_)
      exact .pure (.mk ((hC.text.append_left _).append_right _) _)
  | supplied => exact .of_uniform (fun _ => rfl) (.error _)
  | await => exact .of_uniform (fun _ => rfl) (.error _)

theorem Site.holdLiteral (site : Site) : HoldLiteral fun s => site.fill s :=
  .of_uniform (fun _ => by cases site <;> rfl) site.uniform_toPhp

/-- **Expressions around a text**: either none of them has code, or the code has the literal of the
text at a fixed place. -/
theorem Context.uniform_toPhp (C : Context) :
    Uniform Code.HasLiteral fun s => (C.fill s).toPhp := by
  obtain ⟨layers, site⟩ := C
  have hlayers : HoldLiteral fun s => layers.foldr (fun layer e => layer.fill e) (site.fill s) := by
    induction layers with
    | nil => exact site.holdLiteral
    | cons layer layers ih => exact layer.holdLiteral ih
  exact hlayers.1

end Expr

end Polyglot
