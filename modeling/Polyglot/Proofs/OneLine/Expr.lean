import Polyglot.Proofs.Expr.Lists
import Polyglot.Proofs.Expr.Negation
import Polyglot.Proofs.Expr.Operands
import Polyglot.Proofs.OneLine.Ty

/-!
# Expressions on one line

The characters of texts and the keys of dicts are written between quotes, where newlines are
escaped. So a newline in the Python or TypeScript code of an expression comes from a text that the
caller spelled: a name, a type, or code of the caller's own.

* `Expr.spelled`, `Expr.IsFlat` : what the caller spells in an expression; none of it holds a
  newline.
* `Expr.HasLine.toPython_of_operands`, `Expr.HasLine.toTypeScript_of_operands` : one node.
* `Expr.IsFlat.hasLine_render` : **the code of a flat expression is one line.**
-/

set_option autoImplicit false

namespace Polyglot

open Outcome Text

/-! ## What the caller spells -/

namespace Expr

/-- The texts that the caller spells at the root of an expression. -/
def spelled (t : Target) : Expr → List String
  | .cast ty _ => ty.spelled t
  | .var name _ | .field name _ | .prop _ name _ => [name]
  | .call callee _ _ named => callee :: named.map Prod.fst
  | .apply _ _ _ named => named.map Prod.fst
  | .only _ code => [code.text]
  | .perTarget codes => (codes.get t).toList.map Code.text
  | .literal _ | .null | .omit | .list _ _ | .dict _ _ | .item _ _ _ | .itemOr _ _ _ _ | .text _
  | .junction _ _ | .not _ | .length _ | .isNull _ _ | .compare _ _ _ _ | .isType _ _
  | .supplied _ | .await _ => []

/-- Nothing that the caller spells in the expression, at any depth, holds a newline. -/
def IsFlat (t : Target) (e : Expr) : Prop :=
  ∀ node, Within node e → ∀ s ∈ node.spelled t, IsLine s

theorem IsFlat.operand {t : Target} {e o : Expr} (h : e.IsFlat t) (ho : o ∈ e.operands) :
    o.IsFlat t := fun node hnode => h node (.operand ho hnode)

/-- What is spelled in an expression is spelled at its root or in its operands. -/
theorem isFlat_iff {t : Target} {e : Expr} :
    e.IsFlat t ↔ (∀ s ∈ e.spelled t, IsLine s) ∧ ∀ o ∈ e.operands, o.IsFlat t := by
  constructor
  · exact fun h => ⟨h e (.self e), fun o ho => h.operand ho⟩
  · rintro ⟨hroot, hoperands⟩ node hnode
    cases hnode with
    | self => exact hroot
    | operand ho hnode => exact hoperands _ ho node hnode

/-- An expression without operands. -/
theorem isFlat_of_operands_eq_nil {t : Target} {e : Expr} (h : e.operands = [])
    (hroot : ∀ s ∈ e.spelled t, IsLine s) : e.IsFlat t :=
  isFlat_iff.2 ⟨hroot, by simp [h]⟩

/-- An expression with one operand. -/
theorem isFlat_of_operands_eq_singleton {t : Target} {e o : Expr} (h : e.operands = [o])
    (hroot : ∀ s ∈ e.spelled t, IsLine s) (ho : o.IsFlat t) : e.IsFlat t :=
  isFlat_iff.2 ⟨hroot, by simpa [h] using ho⟩

end Expr

/-! ## Forms of code -/

namespace Code

@[simp] theorem isLine_operand {c : Code} : IsLine c.operand ↔ IsLine c.text := by
  unfold operand parenthesized
  split <;> simp +decide

@[simp] theorem isLine_base {c : Code} : IsLine c.base ↔ IsLine c.text := isLine_operand

theorem isLine_commas {cs : List Code} (h : ∀ c ∈ cs, IsLine c.text) :
    IsLine (", ".intercalate (cs.map text)) := by
  rw [isLine_intercalate (by decide)]
  simpa using h

/-- Named values behind their names in quotes. -/
theorem isLine_entries {es : List (String × Code)} (h : ∀ e ∈ es, IsLine e.2.text) :
    IsLine (", ".intercalate (es.map fun e => Quoted.encode e.1 ++ ": " ++ e.2.text)) := by
  rw [isLine_intercalate (by decide), List.forall_mem_map]
  intro e he
  simp +decide [isLine_quoted, h e he]

theorem isLine_callText {callee : String} {args : List String} (hcallee : IsLine callee)
    (h : ∀ s ∈ args, IsLine s) : IsLine (callText callee args) := by
  have hsep : IsLine ", " := by decide
  have hargs := (isLine_intercalate hsep).2 h
  simp +decide [callText, hcallee, hargs]

/-- The arguments of a call, with those behind their names last. -/
theorem isLine_pythonArgs {args : List Code} {named : List (String × Code)}
    (hargs : ∀ c ∈ args, IsLine c.text) (hnames : ∀ n ∈ named, IsLine n.1)
    (hnamed : ∀ n ∈ named, IsLine n.2.text) :
    ∀ s ∈ args.map text ++ named.map fun n => n.1 ++ "=" ++ n.2.text, IsLine s := by
  rw [List.forall_mem_append, List.forall_mem_map, List.forall_mem_map]
  refine ⟨hargs, fun n hn => ?_⟩
  simp +decide [hnames n hn, hnamed n hn]

theorem isLine_pythonIsNull (negated : Bool) {c : Code} :
    IsLine (c.pythonIsNull negated).text ↔ IsLine c.text := by
  cases negated <;> simp +decide [pythonIsNull]

theorem isLine_typeScriptIsNull (negated : Bool) {c : Code} :
    IsLine (c.typeScriptIsNull negated).text ↔ IsLine c.text := by
  cases negated <;> simp +decide [typeScriptIsNull]

theorem isLine_typeScriptCall {callee : String} (construct : Bool) {args : List Code}
    (hcallee : IsLine callee) (h : ∀ c ∈ args, IsLine c.text) :
    IsLine (typeScriptCall callee construct args) := by
  have hargs := isLine_commas h
  cases construct <;> simp +decide [typeScriptCall, hcallee, hargs]

end Code

theorem Comparison.isLine_toPython (op : Comparison) (negated : Bool) {l r : Code} :
    IsLine (op.toPython negated l r).text ↔ IsLine l.text ∧ IsLine r.text := by
  cases op <;> cases negated <;> simp +decide [toPython, pythonOperator]

theorem Comparison.isLine_toTypeScript (op : Comparison) (negated : Bool) {l r : Code} :
    IsLine (op.toTypeScript negated l r).text ↔ IsLine l.text ∧ IsLine r.text := by
  cases op <;> cases negated <;> simp +decide [toTypeScript, typeScriptOperator]

theorem Junction.isLine_toPython (op : Junction) {cs : List Code} (h : ∀ c ∈ cs, IsLine c.text) :
    IsLine (op.toPython cs) := by
  have hop : IsLine op.pythonOperator := by
    cases op <;> decide
  have hcodes : IsLine (op.pythonOperator.intercalate (cs.map Code.operand)) := by
    rw [isLine_intercalate hop]
    simpa using h
  unfold toPython
  split
  · simp +decide [h _ (List.mem_singleton_self _)]
  · simp +decide [hcodes]

theorem Junction.isLine_toTypeScript (op : Junction) {cs : List Code}
    (h : ∀ c ∈ cs, IsLine c.text) : IsLine (op.toTypeScript cs) := by
  have hop : IsLine op.typeScriptOperator := by
    cases op <;> decide
  have hcodes : IsLine (op.typeScriptOperator.intercalate (cs.map Code.operand)) := by
    rw [isLine_intercalate hop]
    simpa using h
  unfold toTypeScript
  split
  · simp +decide [h _ (List.mem_singleton_self _)]
  · simp +decide [hcodes]

/-! ## Lists of results -/

/-- The code of the expression is one line, if there is any. -/
def Expr.HasLine (render : Expr → Except Error Code) (e : Expr) : Prop :=
  ∀ c, render e = .ok c → IsLine c.text

namespace Expr

variable {render : Expr → Except Error Code} {es : List Expr} {cs : List Code} {ps : List Part}
  {ts : List String}

/-- The codes of the values of entries, under the names of the entries. -/
theorem HasLine.entries {entries : List (String × Expr)} {codes : List (String × Code)}
    {named : String × Expr → Except Error (String × Code)}
    (hnamed : ∀ e, named e = do
      let c ← render e.2
      return (e.1, c))
    (h : ∀ o ∈ entries.map Prod.snd, HasLine render o) (hcodes : entries.mapM named = .ok codes) :
    (∀ c ∈ codes, IsLine c.2.text) ∧ ∀ c ∈ codes, c.1 ∈ entries.map Prod.fst := by
  have hboth : ∀ c ∈ codes, IsLine c.2.text ∧ c.1 ∈ entries.map Prod.fst := by
    refine forall_mem_of_mapM_eq_ok hcodes fun e he c hc => ?_
    rw [hnamed] at hc
    obtain ⟨value, hvalue, hc⟩ := bind_eq_ok.1 hc
    cases pure_eq_ok.1 hc
    exact ⟨h e.2 (List.mem_map_of_mem he) value hvalue, List.mem_map_of_mem he⟩
  exact ⟨fun c hc => (hboth c hc).1, fun c hc => (hboth c hc).2⟩

theorem isLine_toPythonAll (h : ∀ o ∈ es, HasLine toPython o) (hcs : toPythonAll es = .ok cs) :
    ∀ c ∈ cs, IsLine c.text := by
  rw [toPythonAll_eq_mapM] at hcs
  exact forall_mem_of_mapM_eq_ok hcs h

theorem isLine_toTypeScriptAll (h : ∀ o ∈ es, HasLine toTypeScript o)
    (hcs : toTypeScriptAll es = .ok cs) : ∀ c ∈ cs, IsLine c.text := by
  rw [toTypeScriptAll_eq_mapM] at hcs
  exact forall_mem_of_mapM_eq_ok hcs h

theorem isLine_toPythonParts (h : ∀ o ∈ ps.filterMap Part.expr?, HasLine toPython o)
    (hts : Part.toPythonAll ps = .ok ts) : IsLine (String.join ts) := by
  rw [Part.toPythonAll_eq_mapM] at hts
  refine isLine_join.2 (forall_mem_of_mapM_eq_ok hts fun p hp s hs => ?_)
  cases p with
  | chars text =>
      cases hs
      exact isLine_fString text
  | value e =>
      obtain ⟨c, hc, hs⟩ := bind_eq_ok.1 hs
      cases pure_eq_ok.1 hs
      simp +decide [h e (List.mem_filterMap.2 ⟨.value e, hp, rfl⟩) c hc]

theorem isLine_toTypeScriptParts (h : ∀ o ∈ ps.filterMap Part.expr?, HasLine toTypeScript o)
    (hts : Part.toTypeScriptAll ps = .ok ts) : IsLine (String.join ts) := by
  rw [Part.toTypeScriptAll_eq_mapM] at hts
  refine isLine_join.2 (forall_mem_of_mapM_eq_ok hts fun p hp s hs => ?_)
  cases p with
  | chars text =>
      cases hs
      exact isLine_template text
  | value e =>
      obtain ⟨c, hc, hs⟩ := bind_eq_ok.1 hs
      cases pure_eq_ok.1 hs
      simp +decide [h e (List.mem_filterMap.2 ⟨.value e, hp, rfl⟩) c hc]

/-! ## Negations

A negation is written as another test of its operand, or as the operand of its operand. So an
expression is looked at together with its negation. -/

theorem HasLine.not_toPython {e : Expr} (h : HasLine toPython e)
    (hoperands : ∀ o ∈ e.operands, HasLine toPython o) : HasLine toPython (.not e) := by
  intro c hc
  by_cases hfolds : e.foldsNegation = false
  · rw [toPython_not hfolds] at hc
    obtain ⟨o, ho, hc⟩ := bind_eq_ok.1 hc
    cases pure_eq_ok.1 hc
    simp +decide [h o ho]
  · cases e with
    | not inner => exact hoperands inner (List.mem_singleton_self _) c hc
    | isNull negated value =>
        obtain ⟨v, hv, hc⟩ := bind_eq_ok.1 hc
        cases pure_eq_ok.1 hc
        have htest := h (v.pythonIsNull negated) (bind_eq_ok.2 ⟨v, hv, rfl⟩)
        rw [Code.isLine_pythonIsNull] at htest ⊢
        exact htest
    | compare op negated left right =>
        obtain ⟨l, hl, hc⟩ := bind_eq_ok.1 hc
        obtain ⟨r, hr, hc⟩ := bind_eq_ok.1 hc
        cases pure_eq_ok.1 hc
        have htest := h (op.toPython negated l r)
          (bind_eq_ok.2 ⟨l, hl, bind_eq_ok.2 ⟨r, hr, rfl⟩⟩)
        rw [Comparison.isLine_toPython] at htest ⊢
        exact htest
    | _ => exact absurd rfl hfolds

theorem HasLine.not_toTypeScript {e : Expr} (h : HasLine toTypeScript e)
    (hoperands : ∀ o ∈ e.operands, HasLine toTypeScript o) : HasLine toTypeScript (.not e) := by
  intro c hc
  by_cases hfolds : e.foldsNegation = false
  · rw [toTypeScript_not hfolds] at hc
    obtain ⟨o, ho, hc⟩ := bind_eq_ok.1 hc
    cases pure_eq_ok.1 hc
    simp +decide [h o ho]
  · cases e with
    | not inner => exact hoperands inner (List.mem_singleton_self _) c hc
    | isNull negated value =>
        obtain ⟨v, hv, hc⟩ := bind_eq_ok.1 hc
        cases pure_eq_ok.1 hc
        have htest := h (v.typeScriptIsNull negated) (bind_eq_ok.2 ⟨v, hv, rfl⟩)
        rw [Code.isLine_typeScriptIsNull] at htest ⊢
        exact htest
    | compare op negated left right =>
        obtain ⟨l, hl, hc⟩ := bind_eq_ok.1 hc
        obtain ⟨r, hr, hc⟩ := bind_eq_ok.1 hc
        cases pure_eq_ok.1 hc
        have htest := h (op.toTypeScript negated l r)
          (bind_eq_ok.2 ⟨l, hl, bind_eq_ok.2 ⟨r, hr, rfl⟩⟩)
        rw [Comparison.isLine_toTypeScript] at htest ⊢
        exact htest
    | _ => exact absurd rfl hfolds

/-! ## One expression -/

/-- The Python code of an expression is one line if that holds of the operands and their
negations. -/
theorem HasLine.toPython_of_operands {e : Expr} (hflat : ∀ s ∈ e.spelled .python, IsLine s)
    (ih : ∀ o ∈ e.operands, HasLine toPython o)
    (hnot : ∀ o ∈ e.operands, HasLine toPython (.not o)) : HasLine toPython e := by
  intro c h
  cases e with
  | literal v =>
      cases h
      exact v.isLine_toPython
  | null | «omit» =>
      cases h
      decide
  | list items =>
      obtain ⟨cs, hcs, h⟩ := bind_eq_ok.1 h
      cases pure_eq_ok.1 h
      simp +decide [Code.isLine_commas (isLine_toPythonAll ih hcs)]
  | dict entries =>
      obtain ⟨cs, hcs, h⟩ := bind_eq_ok.1 h
      cases pure_eq_ok.1 h
      rw [toPythonNamed_eq_mapM] at hcs
      simp +decide [Code.isLine_entries (HasLine.entries (fun _ => rfl) ih hcs).1]
  | cast ty value =>
      obtain ⟨text, htext, h⟩ := bind_eq_ok.1 h
      obtain ⟨v, hv, h⟩ := bind_eq_ok.1 h
      cases pure_eq_ok.1 h
      simp only [operands, List.forall_mem_singleton] at ih
      refine Code.isLine_callText (by decide) ?_
      simpa using ⟨Ty.isLine_pythonText hflat htext, ih v hv⟩
  | item selector target key =>
      obtain ⟨t, ht, h⟩ := bind_eq_ok.1 h
      obtain ⟨k, hk, h⟩ := bind_eq_ok.1 h
      cases pure_eq_ok.1 h
      simp only [operands, List.forall_mem_cons] at ih
      obtain ⟨htarget, hkey, -⟩ := ih
      simp +decide [htarget t ht, hkey k hk]
  | itemOr selector target key fallback =>
      simp only [operands, List.forall_mem_cons] at ih
      obtain ⟨htarget, hkey, hfallback, -⟩ := ih
      cases selector with
      | position =>
          obtain ⟨t, ht, h⟩ := bind_eq_ok.1 h
          obtain ⟨k, hk, h⟩ := bind_eq_ok.1 h
          obtain ⟨f, hf, h⟩ := bind_eq_ok.1 h
          cases pure_eq_ok.1 h
          simp +decide [htarget t ht, hkey k hk, hfallback f hf]
      | key =>
          obtain ⟨t, ht, h⟩ := bind_eq_ok.1 h
          obtain ⟨k, hk, h⟩ := bind_eq_ok.1 h
          obtain ⟨f, hf, h⟩ := bind_eq_ok.1 h
          cases pure_eq_ok.1 h
          refine Code.isLine_callText ?_ ?_
          · simp +decide [htarget t ht]
          · simpa using ⟨hkey k hk, hfallback f hf⟩
  | var name =>
      cases h
      exact hflat name (List.mem_singleton_self _)
  | field name =>
      cases h
      simp +decide [hflat name (List.mem_singleton_self _)]
  | prop owner name =>
      obtain ⟨o, ho, h⟩ := bind_eq_ok.1 h
      cases pure_eq_ok.1 h
      simp only [operands, List.forall_mem_singleton] at ih
      simp +decide [hflat name (List.mem_singleton_self _), ih o ho]
  | call callee construct args named =>
      obtain ⟨cs, hcs, h⟩ := bind_eq_ok.1 h
      obtain ⟨ms, hms, h⟩ := bind_eq_ok.1 h
      cases pure_eq_ok.1 h
      obtain ⟨hargs, hnamed⟩ := List.forall_mem_append.1 ih
      obtain ⟨hcallee, hnames⟩ := List.forall_mem_cons.1 hflat
      rw [toPythonNamed_eq_mapM] at hms
      obtain ⟨hvalues, hmem⟩ := HasLine.entries (fun _ => rfl) hnamed hms
      exact Code.isLine_callText hcallee (Code.isLine_pythonArgs (isLine_toPythonAll hargs hcs)
        (fun n hn => hnames n.1 (hmem n hn)) hvalues)
  | apply callee construct args named =>
      obtain ⟨f, hf, h⟩ := bind_eq_ok.1 h
      obtain ⟨cs, hcs, h⟩ := bind_eq_ok.1 h
      obtain ⟨ms, hms, h⟩ := bind_eq_ok.1 h
      cases pure_eq_ok.1 h
      obtain ⟨hcallee, ih⟩ := List.forall_mem_cons.1 ih
      obtain ⟨hargs, hnamed⟩ := List.forall_mem_append.1 ih
      rw [toPythonNamed_eq_mapM] at hms
      obtain ⟨hvalues, hmem⟩ := HasLine.entries (fun _ => rfl) hnamed hms
      exact Code.isLine_callText (Code.isLine_base.2 (hcallee f hf))
        (Code.isLine_pythonArgs (isLine_toPythonAll hargs hcs)
          (fun n hn => hflat n.1 (hmem n hn)) hvalues)
  | text parts =>
      obtain ⟨ts, hts, h⟩ := bind_eq_ok.1 h
      cases pure_eq_ok.1 h
      simp +decide [isLine_toPythonParts ih hts]
  | only language code =>
      cases language with
      | python =>
          cases h
          exact hflat c.text (List.mem_singleton_self _)
      | typescript | php => cases h
  | junction op items =>
      cases items with
      | nil => cases h
      | cons item items =>
          obtain ⟨cs, hcs, h⟩ := bind_eq_ok.1 h
          cases pure_eq_ok.1 h
          exact op.isLine_toPython (isLine_toPythonAll ih hcs)
  | not operand => exact hnot operand (List.mem_singleton_self _) c h
  | length value =>
      obtain ⟨v, hv, h⟩ := bind_eq_ok.1 h
      cases pure_eq_ok.1 h
      simp only [operands, List.forall_mem_singleton] at ih
      exact Code.isLine_callText (by decide) (by simpa using ih v hv)
  | isType test value =>
      obtain ⟨v, hv, h⟩ := bind_eq_ok.1 h
      cases pure_eq_ok.1 h
      simp only [operands, List.forall_mem_singleton] at ih
      have hclass : IsLine test.pythonClass := by
        cases test <;> decide
      exact Code.isLine_callText (by decide) (by simpa using ⟨ih v hv, hclass⟩)
  | supplied value =>
      obtain ⟨v, hv, h⟩ := bind_eq_ok.1 h
      cases pure_eq_ok.1 h
      simp only [operands, List.forall_mem_singleton] at ih
      rw [isLine_append]
      exact ⟨by decide, Code.isLine_callText (by decide) (by simpa +decide using ih v hv)⟩
  | await value =>
      obtain ⟨v, hv, h⟩ := bind_eq_ok.1 h
      cases pure_eq_ok.1 h
      simp only [operands, List.forall_mem_singleton] at ih
      simp +decide [ih v hv]
  | isNull negated value =>
      obtain ⟨v, hv, h⟩ := bind_eq_ok.1 h
      cases pure_eq_ok.1 h
      simp only [operands, List.forall_mem_singleton] at ih
      exact (Code.isLine_pythonIsNull negated).2 (ih v hv)
  | compare op negated left right =>
      obtain ⟨l, hl, h⟩ := bind_eq_ok.1 h
      obtain ⟨r, hr, h⟩ := bind_eq_ok.1 h
      cases pure_eq_ok.1 h
      simp only [operands, List.forall_mem_cons] at ih
      obtain ⟨hleft, hright, -⟩ := ih
      exact (op.isLine_toPython negated).2 ⟨hleft l hl, hright r hr⟩
  | perTarget codes =>
      rw [toPython] at h
      cases hcode : codes.python with
      | none => simp [hcode] at h
      | some code =>
          simp only [hcode] at h
          cases h
          exact hflat c.text (by simp [spelled, PerTarget.get, hcode])

/-- The TypeScript code of an expression is one line if that holds of the operands and their
negations. -/
theorem HasLine.toTypeScript_of_operands {e : Expr}
    (hflat : ∀ s ∈ e.spelled .typescript, IsLine s) (ih : ∀ o ∈ e.operands, HasLine toTypeScript o)
    (hnot : ∀ o ∈ e.operands, HasLine toTypeScript (.not o)) : HasLine toTypeScript e := by
  intro c h
  cases e with
  | literal v =>
      cases h
      exact v.isLine_toTypeScript
  | null | «omit» =>
      cases h
      decide
  | list items =>
      obtain ⟨cs, hcs, h⟩ := bind_eq_ok.1 h
      cases pure_eq_ok.1 h
      simp +decide [Code.isLine_commas (isLine_toTypeScriptAll ih hcs)]
  | dict entries =>
      obtain ⟨cs, hcs, h⟩ := bind_eq_ok.1 h
      cases pure_eq_ok.1 h
      rw [toTypeScriptNamed_eq_mapM] at hcs
      simp +decide [Code.isLine_entries (HasLine.entries (fun _ => rfl) ih hcs).1]
  | cast ty value =>
      obtain ⟨v, hv, h⟩ := bind_eq_ok.1 h
      obtain ⟨text, htext, h⟩ := bind_eq_ok.1 h
      cases pure_eq_ok.1 h
      simp only [operands, List.forall_mem_singleton] at ih
      simp +decide [Ty.isLine_typeScriptText hflat htext, ih v hv]
  | item selector target key =>
      obtain ⟨t, ht, h⟩ := bind_eq_ok.1 h
      obtain ⟨k, hk, h⟩ := bind_eq_ok.1 h
      cases pure_eq_ok.1 h
      simp only [operands, List.forall_mem_cons] at ih
      obtain ⟨htarget, hkey, -⟩ := ih
      simp +decide [htarget t ht, hkey k hk]
  | itemOr selector target key fallback =>
      obtain ⟨t, ht, h⟩ := bind_eq_ok.1 h
      obtain ⟨k, hk, h⟩ := bind_eq_ok.1 h
      obtain ⟨f, hf, h⟩ := bind_eq_ok.1 h
      cases pure_eq_ok.1 h
      simp only [operands, List.forall_mem_cons] at ih
      obtain ⟨htarget, hkey, hfallback, -⟩ := ih
      simp +decide [htarget t ht, hkey k hk, hfallback f hf]
  | var name =>
      cases h
      exact hflat name (List.mem_singleton_self _)
  | field name =>
      cases h
      simp +decide [hflat name (List.mem_singleton_self _)]
  | prop owner name =>
      obtain ⟨o, ho, h⟩ := bind_eq_ok.1 h
      cases pure_eq_ok.1 h
      simp only [operands, List.forall_mem_singleton] at ih
      simp +decide [hflat name (List.mem_singleton_self _), ih o ho]
  | call callee construct args named =>
      cases named with
      | cons => cases h
      | nil =>
          obtain ⟨cs, hcs, h⟩ := bind_eq_ok.1 h
          cases pure_eq_ok.1 h
          have hargs := (List.forall_mem_append.1 ih).1
          exact Code.isLine_typeScriptCall construct (hflat callee (List.mem_cons_self ..))
            (isLine_toTypeScriptAll hargs hcs)
  | apply callee construct args named =>
      cases named with
      | cons => cases h
      | nil =>
          obtain ⟨f, hf, h⟩ := bind_eq_ok.1 h
          obtain ⟨cs, hcs, h⟩ := bind_eq_ok.1 h
          cases pure_eq_ok.1 h
          obtain ⟨hcallee, ih⟩ := List.forall_mem_cons.1 ih
          have hargs := (List.forall_mem_append.1 ih).1
          exact Code.isLine_typeScriptCall construct (Code.isLine_base.2 (hcallee f hf))
            (isLine_toTypeScriptAll hargs hcs)
  | text parts =>
      obtain ⟨ts, hts, h⟩ := bind_eq_ok.1 h
      cases pure_eq_ok.1 h
      simp +decide [isLine_toTypeScriptParts ih hts]
  | only language code =>
      cases language with
      | typescript =>
          cases h
          exact hflat c.text (List.mem_singleton_self _)
      | python | php => cases h
  | junction op items =>
      cases items with
      | nil => cases h
      | cons item items =>
          obtain ⟨cs, hcs, h⟩ := bind_eq_ok.1 h
          cases pure_eq_ok.1 h
          exact op.isLine_toTypeScript (isLine_toTypeScriptAll ih hcs)
  | not operand => exact hnot operand (List.mem_singleton_self _) c h
  | length value | supplied value | await value =>
      obtain ⟨v, hv, h⟩ := bind_eq_ok.1 h
      cases pure_eq_ok.1 h
      simp only [operands, List.forall_mem_singleton] at ih
      simp +decide [ih v hv]
  | isType test value =>
      obtain ⟨v, hv, h⟩ := bind_eq_ok.1 h
      cases pure_eq_ok.1 h
      simp only [operands, List.forall_mem_singleton] at ih
      cases test <;> simp +decide [TypeTest.toTypeScript, ih v hv]
  | isNull negated value =>
      obtain ⟨v, hv, h⟩ := bind_eq_ok.1 h
      cases pure_eq_ok.1 h
      simp only [operands, List.forall_mem_singleton] at ih
      exact (Code.isLine_typeScriptIsNull negated).2 (ih v hv)
  | compare op negated left right =>
      obtain ⟨l, hl, h⟩ := bind_eq_ok.1 h
      obtain ⟨r, hr, h⟩ := bind_eq_ok.1 h
      cases pure_eq_ok.1 h
      simp only [operands, List.forall_mem_cons] at ih
      obtain ⟨hleft, hright, -⟩ := ih
      exact (op.isLine_toTypeScript negated).2 ⟨hleft l hl, hright r hr⟩
  | perTarget codes =>
      rw [toTypeScript] at h
      cases hcode : codes.typescript with
      | none => simp [hcode] at h
      | some code =>
          simp only [hcode] at h
          cases h
          exact hflat c.text (by simp [spelled, PerTarget.get, hcode])

/-- **The code of a flat expression is one line**, and so is that of its negation. -/
theorem IsFlat.hasLine_render {t : Target} (ht : t ≠ .php) (e : Expr) (hflat : e.IsFlat t) :
    HasLine (fun e => e.render t) e ∧ HasLine (fun e => e.render t) (.not e) := by
  revert hflat
  induction e using induction_on_operands with
  | step e ih =>
      intro hflat
      have hoperands := fun o ho => (ih o ho (hflat.operand ho)).1
      have hnegations := fun o ho => (ih o ho (hflat.operand ho)).2
      have hspelled := (isFlat_iff.1 hflat).1
      cases t with
      | python =>
          have h := HasLine.toPython_of_operands hspelled hoperands hnegations
          exact ⟨h, h.not_toPython hoperands⟩
      | typescript =>
          have h := HasLine.toTypeScript_of_operands hspelled hoperands hnegations
          exact ⟨h, h.not_toTypeScript hoperands⟩
      | php => exact absurd rfl ht

end Expr

end Polyglot
