import Polyglot.Proofs.Brackets.Ty
import Polyglot.Proofs.Expr.Negation

/-!
# Brackets in expressions

The code of an expression is well bracketed in TypeScript and PHP if the caller spells nothing in it
but names without brackets and quotes. One lemma for each form of code says that it is well
bracketed if its parts are; the induction over expressions puts them together.

* `Template.IsPiece` : what may stand between the backticks of a template literal.
* `Expr.wellBracketed_toTypeScript` : expressions in TypeScript.
* `Expr.wellBracketed_toPhp` : expressions in PHP.
-/

set_option autoImplicit false

namespace Polyglot

open Outcome Brackets

variable {t : Target} {ok : String → Bool}

/-! ## Forms of code -/

namespace Code

theorem wellBracketed_parenthesized {s : String} (h : WellBracketed t s) :
    WellBracketed t (parenthesized s) := Shifts.lit rfl |>.wrap h |>.add rfl

theorem wellBracketed_operand {c : Code} (h : WellBracketed t c.text) :
    WellBracketed t c.operand := by
  unfold operand
  split
  · exact wellBracketed_parenthesized h
  · exact h

theorem wellBracketed_base {c : Code} (h : WellBracketed t c.text) : WellBracketed t c.base :=
  wellBracketed_operand h

theorem wellBracketed_commas {cs : List Code} (h : ∀ c ∈ cs, WellBracketed t c.text) :
    WellBracketed t (", ".intercalate (cs.map text)) := by
  refine .intercalate (.lit rfl) fun s hs => ?_
  obtain ⟨c, hc, rfl⟩ := List.mem_map.1 hs
  exact h c hc

/-- The entries of an associative literal. -/
theorem wellBracketed_entries {key : String → String} (arrow : String)
    (hkey : ∀ s, WellBracketed t (key s)) (harrow : WellBracketed t arrow)
    {es : List (String × Code)} (h : ∀ e ∈ es, WellBracketed t e.2.text) :
    WellBracketed t (", ".intercalate (es.map fun e => key e.1 ++ arrow ++ e.2.text)) := by
  refine .intercalate (.lit rfl) fun s hs => ?_
  obtain ⟨e, he, rfl⟩ := List.mem_map.1 hs
  exact ((hkey e.1).wrap harrow).wrap (h e he)

/-- The arguments of a call behind what is called. -/
theorem wellBracketed_call {callee : String} {args : List Code} (hcallee : WellBracketed t callee)
    (h : ∀ c ∈ args, WellBracketed t c.text) :
    WellBracketed t (callee ++ "(" ++ ", ".intercalate (args.map text) ++ ")") :=
  hcallee.add rfl |>.wrap (wellBracketed_commas h) |>.add rfl

theorem wellBracketed_typeScriptCall {callee : String} (construct : Bool) {args : List Code}
    (hcallee : WellBracketed .typescript callee)
    (h : ∀ c ∈ args, WellBracketed .typescript c.text) :
    WellBracketed .typescript (typeScriptCall callee construct args) := by
  have hnew : WellBracketed .typescript (if construct then "new " else "") := by
    cases construct <;> exact .lit rfl
  exact wellBracketed_call (hnew.wrap hcallee) h

theorem wellBracketed_phpCall {callee : String} (construct : Bool) {args : List Code}
    (hcallee : WellBracketed .php callee) (h : ∀ c ∈ args, WellBracketed .php c.text) :
    WellBracketed .php (phpCall callee construct args).text := by
  have hcall := wellBracketed_call hcallee h
  cases construct with
  | false => exact hcall
  | true => exact (Shifts.lit rfl).wrap hcall

theorem wellBracketed_typeScriptIsNull (negated : Bool) {c : Code}
    (h : WellBracketed .typescript c.text) :
    WellBracketed .typescript (c.typeScriptIsNull negated).text := by
  refine (wellBracketed_base h).wrap ?_
  cases negated <;> exact .lit rfl

theorem wellBracketed_phpIsNull (negated : Bool) {c : Code} (h : WellBracketed .php c.text) :
    WellBracketed .php (c.phpIsNull negated).text := by
  refine (wellBracketed_base h).wrap ?_
  cases negated <;> exact .lit rfl

end Code

/-- Operands with an operator between them. -/
theorem wellBracketed_joined {operator : String} (ho : WellBracketed t operator) {cs : List Code}
    (h : ∀ c ∈ cs, WellBracketed t c.text) :
    WellBracketed t (operator.intercalate (cs.map Code.operand)) := by
  refine .intercalate ho fun s hs => ?_
  obtain ⟨c, hc, rfl⟩ := List.mem_map.1 hs
  exact Code.wellBracketed_operand (h c hc)

/-- Two operands with an operator between them. -/
theorem wellBracketed_binary {operator : String} (ho : WellBracketed t operator) {l r : Code}
    (hl : WellBracketed t l.text) (hr : WellBracketed t r.text) :
    WellBracketed t (l.operand ++ " " ++ operator ++ " " ++ r.operand) :=
  (Code.wellBracketed_operand hl).add rfl |>.wrap ho |>.add rfl
    |>.wrap (Code.wellBracketed_operand hr)

theorem Comparison.wellBracketed_toTypeScript (op : Comparison) (negated : Bool) {l r : Code}
    (hl : WellBracketed .typescript l.text) (hr : WellBracketed .typescript r.text) :
    WellBracketed .typescript (op.toTypeScript negated l r).text := by
  refine wellBracketed_binary ?_ hl hr
  cases op <;> cases negated <;> exact .lit rfl

theorem Comparison.wellBracketed_toPhp (op : Comparison) (negated : Bool) {l r : Code}
    (hl : WellBracketed .php l.text) (hr : WellBracketed .php r.text) :
    WellBracketed .php (op.toPhp negated l r).text := by
  refine wellBracketed_binary ?_ hl hr
  cases op <;> cases negated <;> exact .lit rfl

theorem Junction.wellBracketed_toTypeScript (op : Junction) {cs : List Code}
    (h : ∀ c ∈ cs, WellBracketed .typescript c.text) :
    WellBracketed .typescript (op.toTypeScript cs) := by
  have ho : WellBracketed .typescript op.typeScriptOperator := by
    cases op <;> exact .lit rfl
  unfold Junction.toTypeScript
  split
  · exact (Shifts.lit rfl).wrap (Code.wellBracketed_operand (h _ (List.mem_singleton_self _)))
  · exact Shifts.lit rfl |>.wrap (wellBracketed_joined ho h) |>.add rfl

theorem Junction.wellBracketed_toPhp (op : Junction) {cs : List Code}
    (h : ∀ c ∈ cs, WellBracketed .php c.text) : WellBracketed .php (op.toPhp cs) := by
  have ho : WellBracketed .php op.phpOperator := by
    cases op <;> exact .lit rfl
  unfold Junction.toPhp
  split
  · exact (Shifts.lit rfl).wrap (Code.wellBracketed_base (h _ (List.mem_singleton_self _)))
  · exact wellBracketed_joined ho h

theorem TypeTest.wellBracketed_toTypeScript (test : TypeTest) {c : Code}
    (h : WellBracketed .typescript c.text) :
    WellBracketed .typescript (test.toTypeScript c).text := by
  have hbase := Code.wellBracketed_base h
  cases test <;> exact Shifts.lit rfl |>.wrap hbase |>.add rfl

/-! ## Template literals -/

namespace Text.Template

/-- Whether a scan is still in the template literal behind the text, whatever is open around it. -/
def IsPiece (s : String) : Prop :=
  ∀ fs : List Frame, hiddenRun .typescript ⟨.inside .backtick, fs⟩ s.toList =
    some ⟨.inside .backtick, fs⟩

/-- A field whose code is well bracketed. -/
theorem isPiece_field {s : String} (h : WellBracketed .typescript s) :
    IsPiece ("$\x7b" ++ s ++ "\x7d") := by
  intro fs
  have hopen : hiddenRun .typescript ⟨.inside .backtick, fs⟩ "$\x7b".toList =
      some ⟨.code, .field :: fs⟩ := rfl
  have hcode : hiddenRun .typescript ⟨.code, .field :: fs⟩ s.toList = some ⟨.code, .field :: fs⟩ :=
    hiddenRun_under h .field fs
  rw [String.toList_append, String.toList_append, hiddenRun_append, hiddenRun_append, hopen,
    Option.bind_some, hcode]
  rfl

theorem isPiece_join {ss : List String} (h : ∀ s ∈ ss, IsPiece s) : IsPiece (String.join ss) := by
  induction ss with
  | nil => exact fun fs => rfl
  | cons s ss ih =>
      intro fs
      rw [String.join_cons, String.toList_append, hiddenRun_append, h s (List.mem_cons_self ..) fs]
      exact ih (fun s' hs' => h s' (List.mem_cons_of_mem _ hs')) fs

/-- Pieces between backticks. -/
theorem hides {ss : List String} (h : ∀ s ∈ ss, IsPiece s) (fs : List Frame) :
    Hides .typescript fs fs ("\x60" ++ String.join ss ++ "\x60") := by
  have hrun := hiddenRun_literal (q := .backtick) rfl (isPiece_join h fs)
  rw [Hides, String.toList_append, String.toList_append, List.append_assoc]
  exact hrun

end Text.Template

/-! ## TypeScript -/

namespace Expr

/-- A negation that is not folded into the test below it. -/
theorem wellBracketed_toTypeScript_not {e : Expr} (hfold : e.foldsNegation = false)
    (he : ∀ {o : Code}, e.toTypeScript = .ok o → WellBracketed .typescript o.text) {c : Code}
    (h : (Expr.not e).toTypeScript = .ok c) : WellBracketed .typescript c.text := by
  rw [toTypeScript_not hfold] at h
  obtain ⟨o, ho, h⟩ := bind_eq_ok.1 h
  cases pure_eq_ok.1 h
  exact (Shifts.lit rfl).wrap (Code.wellBracketed_operand (he ho))

/-- A subscript. -/
theorem wellBracketed_subscript {t : Target} {target key : Code}
    (ht : WellBracketed t target.text) (hk : WellBracketed t key.text) :
    WellBracketed t (target.base ++ "[" ++ key.text ++ "]") :=
  (Code.wellBracketed_base ht).add rfl |>.wrap hk |>.add rfl

end Expr

mutual

/-- The TypeScript code of an expression that is spelled by inert names is well bracketed. -/
theorem Expr.wellBracketed_toTypeScript (hok : OnlyInert ok) :
    ∀ e : Expr, e.IsSpelled ok .typescript → ∀ {c : Code},
    e.toTypeScript = .ok c → WellBracketed .typescript c.text
  | .literal value, _, c, h => by
      cases h
      exact value.wellBracketed_toTypeScript
  | .null, _, c, h | .omit, _, c, h => by
      cases h
      exact .lit rfl
  | .list items _, hspell, c, h => by
      obtain ⟨cs, hcs, h⟩ := bind_eq_ok.1 h
      cases pure_eq_ok.1 h
      have hitems := Expr.wellBracketed_toTypeScriptAll hok items hspell hcs
      exact Shifts.lit rfl |>.wrap (Code.wellBracketed_commas hitems) |>.add rfl
  | .dict entries _, hspell, c, h => by
      obtain ⟨es, hes, h⟩ := bind_eq_ok.1 h
      cases pure_eq_ok.1 h
      have hvalues := Expr.wellBracketed_toTypeScriptNamed hok entries hspell hes
      have hentries := Code.wellBracketed_entries ": "
        (Text.Quoted.wellBracketed_encode (by decide)) (.lit rfl) hvalues
      exact Shifts.lit rfl |>.wrap hentries |>.add rfl
  | .cast ty value, hspell, c, h => by
      obtain ⟨v, hv, h⟩ := bind_eq_ok.1 h
      obtain ⟨text, htext, h⟩ := bind_eq_ok.1 h
      cases pure_eq_ok.1 h
      have hvalue := Code.wellBracketed_base (Expr.wellBracketed_toTypeScript hok value hspell.2 hv)
      have hty := Ty.IsSpelled.wellBracketed_typeScriptText hok hspell.1 htext
      exact Shifts.lit rfl |>.wrap hvalue |>.add rfl |>.wrap hty |>.add rfl
  | .item _ target key, hspell, c, h => by
      obtain ⟨tc, ht, h⟩ := bind_eq_ok.1 h
      obtain ⟨k, hk, h⟩ := bind_eq_ok.1 h
      cases pure_eq_ok.1 h
      exact Expr.wellBracketed_subscript (Expr.wellBracketed_toTypeScript hok target hspell.1 ht)
        (Expr.wellBracketed_toTypeScript hok key hspell.2 hk)
  | .itemOr _ target key fallback, hspell, c, h => by
      obtain ⟨tc, ht, h⟩ := bind_eq_ok.1 h
      obtain ⟨k, hk, h⟩ := bind_eq_ok.1 h
      obtain ⟨f, hf, h⟩ := bind_eq_ok.1 h
      cases pure_eq_ok.1 h
      have haccess := Expr.wellBracketed_subscript
        (Expr.wellBracketed_toTypeScript hok target hspell.1 ht)
        (Expr.wellBracketed_toTypeScript hok key hspell.2.1 hk)
      have hfallback := Expr.wellBracketed_toTypeScript hok fallback hspell.2.2 hf
      exact haccess.add rfl |>.wrap haccess |>.add rfl |>.wrap hfallback
  | .var name _, hspell, c, h => by
      cases h
      exact .of_isInert (hok name hspell)
  | .field name _, hspell, c, h => by
      cases h
      exact (Shifts.lit rfl).wrap (.of_isInert (hok name hspell))
  | .prop owner name _, hspell, c, h => by
      obtain ⟨o, ho, h⟩ := bind_eq_ok.1 h
      cases pure_eq_ok.1 h
      have howner := Code.wellBracketed_base (Expr.wellBracketed_toTypeScript hok owner hspell.1 ho)
      exact howner.add rfl |>.wrap (.of_isInert (hok name hspell.2))
  | .call _ _ _ (_ :: _), _, c, h | .apply _ _ _ (_ :: _), _, c, h => nomatch h
  | .call callee construct args [], hspell, c, h => by
      obtain ⟨cs, hcs, h⟩ := bind_eq_ok.1 h
      cases pure_eq_ok.1 h
      exact Code.wellBracketed_typeScriptCall construct (.of_isInert (hok callee hspell.1))
        (Expr.wellBracketed_toTypeScriptAll hok args hspell.2.1 hcs)
  | .apply callee construct args [], hspell, c, h => by
      obtain ⟨f, hf, h⟩ := bind_eq_ok.1 h
      obtain ⟨cs, hcs, h⟩ := bind_eq_ok.1 h
      cases pure_eq_ok.1 h
      have hcallee := Code.wellBracketed_base
        (Expr.wellBracketed_toTypeScript hok callee hspell.1 hf)
      exact Code.wellBracketed_typeScriptCall construct hcallee
        (Expr.wellBracketed_toTypeScriptAll hok args hspell.2.1 hcs)
  | .text parts, hspell, c, h => by
      obtain ⟨ps, hps, h⟩ := bind_eq_ok.1 h
      cases pure_eq_ok.1 h
      exact (Text.Template.hides (Part.isPiece_toTypeScriptAll hok parts hspell hps) []).shifts
  | .only _ _, hspell, _, _ | .perTarget _, hspell, _, _ => hspell.elim
  | .junction _ [], _, c, h => nomatch h
  | .junction op (e :: es), hspell, c, h => by
      obtain ⟨cs, hcs, h⟩ := bind_eq_ok.1 h
      cases pure_eq_ok.1 h
      exact op.wellBracketed_toTypeScript
        (Expr.wellBracketed_toTypeScriptAll hok (e :: es) hspell hcs)
  | .not operand, hspell, c, h => by
      have hoperand : ∀ {o : Code}, operand.toTypeScript = .ok o →
          WellBracketed .typescript o.text :=
        fun ho => Expr.wellBracketed_toTypeScript hok operand hspell ho
      cases operand with
      | not inner => exact Expr.wellBracketed_toTypeScript hok inner hspell h
      | isNull negated value =>
          obtain ⟨v, hv, h⟩ := bind_eq_ok.1 h
          cases pure_eq_ok.1 h
          exact Code.wellBracketed_typeScriptIsNull _
            (Expr.wellBracketed_toTypeScript hok value hspell hv)
      | compare op negated left right =>
          obtain ⟨l, hl, h⟩ := bind_eq_ok.1 h
          obtain ⟨r, hr, h⟩ := bind_eq_ok.1 h
          cases pure_eq_ok.1 h
          exact op.wellBracketed_toTypeScript _
            (Expr.wellBracketed_toTypeScript hok left hspell.1 hl)
            (Expr.wellBracketed_toTypeScript hok right hspell.2 hr)
      | _ => exact Expr.wellBracketed_toTypeScript_not rfl hoperand h
  | .length value, hspell, c, h => by
      obtain ⟨v, hv, h⟩ := bind_eq_ok.1 h
      cases pure_eq_ok.1 h
      exact (Code.wellBracketed_base (Expr.wellBracketed_toTypeScript hok value hspell hv)).add rfl
  | .isNull negated value, hspell, c, h => by
      obtain ⟨v, hv, h⟩ := bind_eq_ok.1 h
      cases pure_eq_ok.1 h
      exact Code.wellBracketed_typeScriptIsNull _
        (Expr.wellBracketed_toTypeScript hok value hspell hv)
  | .compare op negated left right, hspell, c, h => by
      obtain ⟨l, hl, h⟩ := bind_eq_ok.1 h
      obtain ⟨r, hr, h⟩ := bind_eq_ok.1 h
      cases pure_eq_ok.1 h
      exact op.wellBracketed_toTypeScript _ (Expr.wellBracketed_toTypeScript hok left hspell.1 hl)
        (Expr.wellBracketed_toTypeScript hok right hspell.2 hr)
  | .isType test value, hspell, c, h => by
      obtain ⟨v, hv, h⟩ := bind_eq_ok.1 h
      cases pure_eq_ok.1 h
      exact test.wellBracketed_toTypeScript (Expr.wellBracketed_toTypeScript hok value hspell hv)
  | .supplied value, hspell, c, h => by
      obtain ⟨v, hv, h⟩ := bind_eq_ok.1 h
      cases pure_eq_ok.1 h
      have hvalue := Code.wellBracketed_base (Expr.wellBracketed_toTypeScript hok value hspell hv)
      exact Shifts.lit rfl |>.wrap hvalue |>.add rfl
  | .await value, hspell, c, h => by
      obtain ⟨v, hv, h⟩ := bind_eq_ok.1 h
      cases pure_eq_ok.1 h
      have hvalue := Code.wellBracketed_base (Expr.wellBracketed_toTypeScript hok value hspell hv)
      exact (Shifts.lit rfl).wrap hvalue

theorem Expr.wellBracketed_toTypeScriptAll (hok : OnlyInert ok) :
    ∀ es : List Expr, Expr.AllSpelled ok .typescript es →
    ∀ {cs : List Code}, Expr.toTypeScriptAll es = .ok cs →
      ∀ c ∈ cs, WellBracketed .typescript c.text
  | [], _, cs, h => by
      cases h
      exact fun c hc => nomatch hc
  | e :: es, hspell, cs, h => by
      obtain ⟨c, hc, h⟩ := bind_eq_ok.1 h
      obtain ⟨rest, hrest, h⟩ := bind_eq_ok.1 h
      cases pure_eq_ok.1 h
      intro c' hc'
      rcases List.mem_cons.1 hc' with rfl | hc'
      · exact Expr.wellBracketed_toTypeScript hok e hspell.1 hc
      · exact Expr.wellBracketed_toTypeScriptAll hok es hspell.2 hrest c' hc'

theorem Expr.wellBracketed_toTypeScriptNamed (hok : OnlyInert ok) :
    ∀ es : List (String × Expr), Expr.NamedSpelled ok .typescript es →
    ∀ {cs : List (String × Code)}, Expr.toTypeScriptNamed es = .ok cs →
      ∀ c ∈ cs, WellBracketed .typescript c.2.text
  | [], _, cs, h => by
      cases h
      exact fun c hc => nomatch hc
  | (name, e) :: es, hspell, cs, h => by
      obtain ⟨c, hc, h⟩ := bind_eq_ok.1 h
      obtain ⟨rest, hrest, h⟩ := bind_eq_ok.1 h
      cases pure_eq_ok.1 h
      intro c' hc'
      rcases List.mem_cons.1 hc' with rfl | hc'
      · exact Expr.wellBracketed_toTypeScript hok e hspell.1 hc
      · exact Expr.wellBracketed_toTypeScriptNamed hok es hspell.2 hrest c' hc'

theorem Part.isPiece_toTypeScriptAll (hok : OnlyInert ok) :
    ∀ ps : List Part, Part.AllSpelled ok .typescript ps →
    ∀ {ss : List String}, Part.toTypeScriptAll ps = .ok ss → ∀ s ∈ ss, Text.Template.IsPiece s
  | [], _, ss, h => by
      cases h
      exact fun s hs => nomatch hs
  | .chars text :: ps, hspell, ss, h => by
      obtain ⟨rest, hrest, h⟩ := bind_eq_ok.1 h
      cases pure_eq_ok.1 h
      intro s hs
      rcases List.mem_cons.1 hs with rfl | hs
      · exact fun fs => Text.Template.hiddenRun_encode text
      · exact Part.isPiece_toTypeScriptAll hok ps hspell hrest s hs
  | .value e :: ps, hspell, ss, h => by
      obtain ⟨c, hc, h⟩ := bind_eq_ok.1 h
      obtain ⟨rest, hrest, h⟩ := bind_eq_ok.1 h
      cases pure_eq_ok.1 h
      intro s hs
      rcases List.mem_cons.1 hs with rfl | hs
      · exact Text.Template.isPiece_field (Expr.wellBracketed_toTypeScript hok e hspell.2.1 hc)
      · exact Part.isPiece_toTypeScriptAll hok ps hspell.2.2 hrest s hs

end

/-! ## PHP -/

theorem Literal.hides_toPhp (v : Literal) : Hides .php [] [] v.toPhp := by
  cases v with
  | bool b => cases b <;> exact .lit rfl
  | int n => exact .of_isSolid (isSolid_int n)
  | str s => exact Text.SingleQuoted.hides_encode s

theorem Literal.wellBracketed_toPhp (v : Literal) : WellBracketed .php v.toPhp :=
  v.hides_toPhp.shifts

theorem TypeTest.hides_phpFunction (test : TypeTest) : Hides .php [] [] test.phpFunction := by
  cases test <;> exact .lit rfl

/-- A negation that is not folded into the test below it. -/
theorem Expr.wellBracketed_toPhp_not {e : Expr} (hfold : e.foldsNegation = false)
    (he : ∀ {o : Code}, e.toPhp = .ok o → WellBracketed .php o.text) {c : Code}
    (h : (Expr.not e).toPhp = .ok c) : WellBracketed .php c.text := by
  rw [toPhp_not hfold] at h
  obtain ⟨o, ho, h⟩ := bind_eq_ok.1 h
  cases pure_eq_ok.1 h
  exact (Shifts.lit rfl).wrap (Code.wellBracketed_operand (he ho))

mutual

/-- The PHP code of an expression that is spelled by inert names is well bracketed. -/
theorem Expr.wellBracketed_toPhp (hok : OnlyInert ok) :
    ∀ e : Expr, e.IsSpelled ok .php → ∀ {c : Code},
    e.toPhp = .ok c → WellBracketed .php c.text
  | .literal value, _, c, h => by
      cases h
      exact value.wellBracketed_toPhp
  | .null, _, c, h | .text [], _, c, h => by
      cases h
      exact .lit rfl
  | .omit, _, c, h | .supplied _, _, c, h | .await _, _, c, h => nomatch h
  | .list items _, hspell, c, h => by
      obtain ⟨cs, hcs, h⟩ := bind_eq_ok.1 h
      cases pure_eq_ok.1 h
      have hitems := Expr.wellBracketed_toPhpAll hok items hspell hcs
      exact Shifts.lit rfl |>.wrap (Code.wellBracketed_commas hitems) |>.add rfl
  | .dict entries _, hspell, c, h => by
      obtain ⟨es, hes, h⟩ := bind_eq_ok.1 h
      cases pure_eq_ok.1 h
      have hvalues := Expr.wellBracketed_toPhpNamed hok entries hspell hes
      have hentries := Code.wellBracketed_entries " => " Text.SingleQuoted.wellBracketed_encode
        (.lit rfl) hvalues
      exact Shifts.lit rfl |>.wrap hentries |>.add rfl
  | .cast ty value, hspell, c, h => Expr.wellBracketed_toPhp hok value hspell.2 h
  | .item _ target key, hspell, c, h => by
      obtain ⟨tc, ht, h⟩ := bind_eq_ok.1 h
      obtain ⟨k, hk, h⟩ := bind_eq_ok.1 h
      cases pure_eq_ok.1 h
      exact Expr.wellBracketed_subscript (Expr.wellBracketed_toPhp hok target hspell.1 ht)
        (Expr.wellBracketed_toPhp hok key hspell.2 hk)
  | .itemOr _ target key fallback, hspell, c, h => by
      obtain ⟨tc, ht, h⟩ := bind_eq_ok.1 h
      obtain ⟨k, hk, h⟩ := bind_eq_ok.1 h
      obtain ⟨f, hf, h⟩ := bind_eq_ok.1 h
      cases pure_eq_ok.1 h
      have htarget := Code.wellBracketed_base (Expr.wellBracketed_toPhp hok target hspell.1 ht)
      have hkey := Expr.wellBracketed_toPhp hok key hspell.2.1 hk
      have hfallback := Code.wellBracketed_operand
        (Expr.wellBracketed_toPhp hok fallback hspell.2.2 hf)
      exact htarget.add rfl |>.wrap hkey |>.add rfl |>.wrap hfallback
  | .var name _, hspell, c, h | .field name _, hspell, c, h => by
      cases h
      exact (Shifts.lit rfl).wrap (.of_isInert (hok name hspell))
  | .prop owner name _, hspell, c, h => by
      obtain ⟨o, ho, h⟩ := bind_eq_ok.1 h
      cases pure_eq_ok.1 h
      have howner := Code.wellBracketed_base (Expr.wellBracketed_toPhp hok owner hspell.1 ho)
      exact howner.add rfl |>.wrap (.of_isInert (hok name hspell.2))
  | .call _ _ _ (_ :: _), _, c, h | .apply _ _ _ (_ :: _), _, c, h => nomatch h
  | .call callee construct args [], hspell, c, h => by
      obtain ⟨cs, hcs, h⟩ := bind_eq_ok.1 h
      cases pure_eq_ok.1 h
      exact Code.wellBracketed_phpCall construct (.of_isInert (hok callee hspell.1))
        (Expr.wellBracketed_toPhpAll hok args hspell.2.1 hcs)
  | .apply callee construct args [], hspell, c, h => by
      obtain ⟨cs, hcs, h⟩ := bind_eq_ok.1 h
      obtain ⟨f, hf, h⟩ := bind_eq_ok.1 h
      cases pure_eq_ok.1 h
      have hcallee := Code.wellBracketed_base (Expr.wellBracketed_toPhp hok callee hspell.1 hf)
      exact Code.wellBracketed_phpCall construct hcallee
        (Expr.wellBracketed_toPhpAll hok args hspell.2.1 hcs)
  | .text (p :: parts), hspell, c, h => by
      obtain ⟨ps, hps, h⟩ := bind_eq_ok.1 h
      cases pure_eq_ok.1 h
      exact .intercalate (.lit rfl) (Part.wellBracketed_toPhpAll hok (p :: parts) hspell hps)
  | .only _ _, hspell, _, _ | .perTarget _, hspell, _, _ => hspell.elim
  | .junction _ [], _, c, h => nomatch h
  | .junction op (e :: es), hspell, c, h => by
      obtain ⟨cs, hcs, h⟩ := bind_eq_ok.1 h
      cases pure_eq_ok.1 h
      exact op.wellBracketed_toPhp (Expr.wellBracketed_toPhpAll hok (e :: es) hspell hcs)
  | .not operand, hspell, c, h => by
      have hoperand : ∀ {o : Code}, operand.toPhp = .ok o → WellBracketed .php o.text :=
        fun ho => Expr.wellBracketed_toPhp hok operand hspell ho
      cases operand with
      | not inner => exact Expr.wellBracketed_toPhp hok inner hspell h
      | isNull negated value =>
          obtain ⟨v, hv, h⟩ := bind_eq_ok.1 h
          cases pure_eq_ok.1 h
          exact Code.wellBracketed_phpIsNull _ (Expr.wellBracketed_toPhp hok value hspell hv)
      | compare op negated left right =>
          obtain ⟨l, hl, h⟩ := bind_eq_ok.1 h
          obtain ⟨r, hr, h⟩ := bind_eq_ok.1 h
          cases pure_eq_ok.1 h
          exact op.wellBracketed_toPhp _ (Expr.wellBracketed_toPhp hok left hspell.1 hl)
            (Expr.wellBracketed_toPhp hok right hspell.2 hr)
      | _ => exact Expr.wellBracketed_toPhp_not rfl hoperand h
  | .length value, hspell, c, h => by
      obtain ⟨v, hv, h⟩ := bind_eq_ok.1 h
      cases pure_eq_ok.1 h
      exact Shifts.lit rfl |>.wrap (Expr.wellBracketed_toPhp hok value hspell hv) |>.add rfl
  | .isNull negated value, hspell, c, h => by
      obtain ⟨v, hv, h⟩ := bind_eq_ok.1 h
      cases pure_eq_ok.1 h
      exact Code.wellBracketed_phpIsNull _ (Expr.wellBracketed_toPhp hok value hspell hv)
  | .compare op negated left right, hspell, c, h => by
      obtain ⟨l, hl, h⟩ := bind_eq_ok.1 h
      obtain ⟨r, hr, h⟩ := bind_eq_ok.1 h
      cases pure_eq_ok.1 h
      exact op.wellBracketed_toPhp _ (Expr.wellBracketed_toPhp hok left hspell.1 hl)
        (Expr.wellBracketed_toPhp hok right hspell.2 hr)
  | .isType test value, hspell, c, h => by
      obtain ⟨v, hv, h⟩ := bind_eq_ok.1 h
      cases pure_eq_ok.1 h
      have hvalue := Expr.wellBracketed_toPhp hok value hspell hv
      exact test.hides_phpFunction.shifts.add rfl |>.wrap hvalue |>.add rfl

theorem Expr.wellBracketed_toPhpAll (hok : OnlyInert ok) :
    ∀ es : List Expr, Expr.AllSpelled ok .php es →
    ∀ {cs : List Code}, Expr.toPhpAll es = .ok cs → ∀ c ∈ cs, WellBracketed .php c.text
  | [], _, cs, h => by
      cases h
      exact fun c hc => nomatch hc
  | e :: es, hspell, cs, h => by
      obtain ⟨c, hc, h⟩ := bind_eq_ok.1 h
      obtain ⟨rest, hrest, h⟩ := bind_eq_ok.1 h
      cases pure_eq_ok.1 h
      intro c' hc'
      rcases List.mem_cons.1 hc' with rfl | hc'
      · exact Expr.wellBracketed_toPhp hok e hspell.1 hc
      · exact Expr.wellBracketed_toPhpAll hok es hspell.2 hrest c' hc'

theorem Expr.wellBracketed_toPhpNamed (hok : OnlyInert ok) :
    ∀ es : List (String × Expr), Expr.NamedSpelled ok .php es →
    ∀ {cs : List (String × Code)}, Expr.toPhpNamed es = .ok cs →
      ∀ c ∈ cs, WellBracketed .php c.2.text
  | [], _, cs, h => by
      cases h
      exact fun c hc => nomatch hc
  | (name, e) :: es, hspell, cs, h => by
      obtain ⟨c, hc, h⟩ := bind_eq_ok.1 h
      obtain ⟨rest, hrest, h⟩ := bind_eq_ok.1 h
      cases pure_eq_ok.1 h
      intro c' hc'
      rcases List.mem_cons.1 hc' with rfl | hc'
      · exact Expr.wellBracketed_toPhp hok e hspell.1 hc
      · exact Expr.wellBracketed_toPhpNamed hok es hspell.2 hrest c' hc'

theorem Part.wellBracketed_toPhpAll (hok : OnlyInert ok) :
    ∀ ps : List Part, Part.AllSpelled ok .php ps →
    ∀ {ss : List String}, Part.toPhpAll ps = .ok ss → ∀ s ∈ ss, WellBracketed .php s
  | [], _, ss, h => by
      cases h
      exact fun s hs => nomatch hs
  | .chars text :: ps, hspell, ss, h => by
      obtain ⟨rest, hrest, h⟩ := bind_eq_ok.1 h
      cases pure_eq_ok.1 h
      intro s hs
      rcases List.mem_cons.1 hs with rfl | hs
      · exact Text.SingleQuoted.wellBracketed_encode text
      · exact Part.wellBracketed_toPhpAll hok ps hspell hrest s hs
  | .value e :: ps, hspell, ss, h => by
      obtain ⟨c, hc, h⟩ := bind_eq_ok.1 h
      obtain ⟨rest, hrest, h⟩ := bind_eq_ok.1 h
      cases pure_eq_ok.1 h
      intro s hs
      rcases List.mem_cons.1 hs with rfl | hs
      · exact Code.wellBracketed_operand (Expr.wellBracketed_toPhp hok e hspell.2.1 hc)
      · exact Part.wellBracketed_toPhpAll hok ps hspell.2.2 hrest s hs

end

/-! ## Texts of expressions -/

namespace Expr

theorem IsRegular.wellBracketed_toTypeScript {e : Expr} (hreg : e.IsRegular) {c : Code}
    (h : e.toTypeScript = .ok c) : WellBracketed .typescript c.text :=
  Expr.wellBracketed_toTypeScript (fun _ => id) e (hreg.isSpelled (by decide)) h

theorem IsRegular.wellBracketed_toPhp {e : Expr} (hreg : e.IsRegular) {c : Code}
    (h : e.toPhp = .ok c) : WellBracketed .php c.text :=
  Expr.wellBracketed_toPhp (fun _ => id) e (hreg.isSpelled (by decide)) h

theorem wellBracketed_typeScriptText {e : Expr} (hreg : e.IsRegular) {text : String}
    (h : e.typeScriptText = .ok text) : WellBracketed .typescript text := by
  obtain ⟨c, hc, h⟩ := bind_eq_ok.1 h
  cases pure_eq_ok.1 h
  exact hreg.wellBracketed_toTypeScript hc

theorem wellBracketed_phpText {e : Expr} (hreg : e.IsRegular) {text : String}
    (h : e.phpText = .ok text) : WellBracketed .php text := by
  obtain ⟨c, hc, h⟩ := bind_eq_ok.1 h
  cases pure_eq_ok.1 h
  exact hreg.wellBracketed_toPhp hc

end Expr

end Polyglot
