import Polyglot.Proofs.Brackets.Expr

/-!
# Brackets in Python expressions

The Python code of an expression, too, is well bracketed if the caller spells nothing in it but
names without brackets and quotes, and if there are no values in its texts: a value would stand
inside of the quotes of an f-string.

* `Ty.wellBracketed_pythonText` : annotations, also those that are written as strings.
* `Expr.wellBracketed_toPython` : expressions.
-/

set_option autoImplicit false

namespace Polyglot

open Outcome Brackets

variable {ok : String → Bool}

theorem Literal.hides_toPython (v : Literal) : Hides .python [] [] v.toPython := by
  cases v with
  | bool b => cases b <;> exact .lit rfl
  | int n => exact .of_isSolid (isSolid_int n)
  | str s => exact Text.Quoted.hides_encode (by decide) s

theorem Literal.wellBracketed_toPython (v : Literal) : WellBracketed .python v.toPython :=
  v.hides_toPython.shifts

/-! ## Types -/

theorem Annotation.wellBracketed_commas {as : List Annotation}
    (h : ∀ a ∈ as, WellBracketed .python a.text) : WellBracketed .python (commas as) := by
  refine .intercalate (.lit rfl) fun s hs => ?_
  obtain ⟨a, ha, rfl⟩ := List.mem_map.1 hs
  exact h a ha

/-- A generic type. -/
theorem Annotation.wellBracketed_generic {name : String} (hname : WellBracketed .python name)
    {as : List Annotation} (h : ∀ a ∈ as, WellBracketed .python a.text) :
    WellBracketed .python (generic name as).text :=
  hname.add rfl |>.wrap (wellBracketed_commas h) |>.add rfl

namespace Ty

mutual

/-- The annotation for a type that is spelled by inert names is well bracketed. -/
theorem wellBracketed_toPython (hok : OnlyInert ok) :
    ∀ ty : Ty, ty.IsSpelled ok → ∀ {a : Annotation}, ty.toPython = .ok a →
      WellBracketed .python a.text
  | .any, _, a, h | .str, _, a, h | .num, _, a, h | .bool, _, a, h | .null, _, a, h
  | .omit, _, a, h => by
      cases h
      exact .lit rfl
  | .literal values, _, a, h => by
      cases h
      refine Shifts.lit rfl |>.wrap (.intercalate (.lit rfl) fun s hs => ?_) |>.add rfl
      obtain ⟨v, _, rfl⟩ := List.mem_map.1 hs
      exact v.wellBracketed_toPython
  | .optional inner, hspell, a, h | .list inner, hspell, a, h | .set inner, hspell, a, h => by
      obtain ⟨i, hi, h⟩ := bind_eq_ok.1 h
      cases pure_eq_ok.1 h
      refine Annotation.wellBracketed_generic (.lit rfl) fun b hb => ?_
      rw [List.mem_singleton.1 hb]
      exact wellBracketed_toPython hok inner hspell hi
  | .dict key value, hspell, a, h | .map key value, hspell, a, h => by
      obtain ⟨k, hk, h⟩ := bind_eq_ok.1 h
      obtain ⟨v, hv, h⟩ := bind_eq_ok.1 h
      cases pure_eq_ok.1 h
      refine Annotation.wellBracketed_generic (.lit rfl) fun b hb => ?_
      rcases List.mem_cons.1 hb with rfl | hb
      · exact wellBracketed_toPython hok key hspell.1 hk
      · rw [List.mem_singleton.1 hb]
        exact wellBracketed_toPython hok value hspell.2 hv
  | .union [], _, a, h => nomatch h
  | .union (ty :: tys), hspell, a, h => by
      obtain ⟨ms, hms, h⟩ := bind_eq_ok.1 h
      cases pure_eq_ok.1 h
      exact Annotation.wellBracketed_generic (.lit rfl)
        (wellBracketed_toPythonAll hok (ty :: tys) hspell hms)
  | .callable params result, hspell, a, h => by
      obtain ⟨ps, hps, h⟩ := bind_eq_ok.1 h
      obtain ⟨r, hr, h⟩ := bind_eq_ok.1 h
      cases pure_eq_ok.1 h
      have hparams := Annotation.wellBracketed_commas
        (wellBracketed_toPythonAll hok params hspell.1 hps)
      have hresult := wellBracketed_toPython hok result hspell.2 hr
      exact Shifts.lit rfl |>.wrap hparams |>.add rfl |>.wrap hresult |>.add rfl
  | .alias name _, hspell, a, h => by
      cases h
      exact .of_isInert (hok name hspell)
  | .custom _, hspell, _, _ | .python _ _, hspell, _, _ | .typescript _, hspell, _, _ =>
      hspell.elim

theorem wellBracketed_toPythonAll (hok : OnlyInert ok) :
    ∀ tys : List Ty, AllSpelled ok tys → ∀ {as : List Annotation}, toPythonAll tys = .ok as →
      ∀ a ∈ as, WellBracketed .python a.text
  | [], _, as, h => by
      cases h
      exact fun a ha => nomatch ha
  | ty :: tys, hspell, as, h => by
      obtain ⟨a, ha, h⟩ := bind_eq_ok.1 h
      obtain ⟨rest, hrest, h⟩ := bind_eq_ok.1 h
      cases pure_eq_ok.1 h
      intro a' ha'
      rcases List.mem_cons.1 ha' with rfl | ha'
      · exact wellBracketed_toPython hok ty hspell.1 ha
      · exact wellBracketed_toPythonAll hok tys hspell.2 hrest a' ha'

end

/-- The annotation as it stands in code. -/
theorem wellBracketed_pythonText (hok : OnlyInert ok) {ty : Ty}
    (hty : ty.IsSpelled ok) {text : String} (h : ty.pythonText = .ok text) :
    WellBracketed .python text := by
  obtain ⟨a, ha, h⟩ := bind_eq_ok.1 h
  cases pure_eq_ok.1 h
  rw [ Annotation.written]
  split
  · exact Text.Quoted.wellBracketed_encode (by decide) a.text
  · exact wellBracketed_toPython hok ty hty ha

end Ty

/-! ## Forms of code -/

/-- Characters between the quotes of an f-string. -/
theorem Text.FString.hides (texts : List String) (fs : List Frame) :
    Hides .python fs fs ("f\"" ++ String.join (texts.map encode) ++ "\"") := by
  have hinside : hiddenRun .python ⟨.inside .double, fs⟩
      (String.join (texts.map encode)).toList = some ⟨.inside .double, fs⟩ := by
    induction texts with
    | nil => rfl
    | cons s texts ih =>
        rw [List.map_cons, String.join_cons, String.toList_append, hiddenRun_append,
          hiddenRun_encode]
        exact ih
  have hquote : Hides .python fs fs "f" := .of_isSolid (by decide)
  have hliteral := hiddenRun_literal (t := .python) (q := .double) rfl hinside
  have htext : "f\"" ++ String.join (texts.map encode) ++ "\"" =
      "f" ++ ("\"" ++ String.join (texts.map encode) ++ "\"") := by
    rw [← String.append_assoc, ← String.append_assoc]
    rfl
  rw [htext]
  refine hquote.append ?_
  rw [Hides, String.toList_append, String.toList_append, List.append_assoc]
  exact hliteral

namespace Code

theorem wellBracketed_callText {callee : String} {args : List String}
    (hcallee : WellBracketed .python callee) (h : ∀ s ∈ args, WellBracketed .python s) :
    WellBracketed .python (callText callee args) :=
  hcallee.add rfl |>.wrap (.intercalate (.lit rfl) h) |>.add rfl

/-- The arguments of a call, with those behind their names last. -/
theorem wellBracketed_pythonArgs {args : List Code} {named : List (String × Code)}
    (hargs : ∀ c ∈ args, WellBracketed .python c.text)
    (hnames : ∀ n ∈ named, isInert n.1 = true)
    (hnamed : ∀ n ∈ named, WellBracketed .python n.2.text) :
    ∀ s ∈ args.map text ++ named.map fun n => n.1 ++ "=" ++ n.2.text, WellBracketed .python s := by
  intro s hs
  rcases List.mem_append.1 hs with hs | hs
  · obtain ⟨c, hc, rfl⟩ := List.mem_map.1 hs
    exact hargs c hc
  · obtain ⟨n, hn, rfl⟩ := List.mem_map.1 hs
    exact (WellBracketed.of_isInert (hnames n hn)).add rfl |>.wrap (hnamed n hn)

theorem wellBracketed_pythonIsNull (negated : Bool) {c : Code}
    (h : WellBracketed .python c.text) : WellBracketed .python (c.pythonIsNull negated).text := by
  refine (wellBracketed_operand h).wrap ?_
  cases negated <;> exact .lit rfl

end Code

theorem Comparison.wellBracketed_toPython (op : Comparison) (negated : Bool) {l r : Code}
    (hl : WellBracketed .python l.text) (hr : WellBracketed .python r.text) :
    WellBracketed .python (op.toPython negated l r).text := by
  refine wellBracketed_binary ?_ hl hr
  cases op <;> cases negated <;> exact .lit rfl

theorem Junction.hides_toPython (op : Junction) {cs : List Code}
    (h : ∀ c ∈ cs, WellBracketed .python c.text) : Hides .python [] [] (op.toPython cs) := by
  have ho : WellBracketed .python op.pythonOperator := by
    cases op <;> exact .lit rfl
  unfold Junction.toPython
  split
  · exact Hides.lit rfl |>.inside (h _ (List.mem_singleton_self _)) |>.add rfl
  · exact Hides.lit rfl |>.inside (wellBracketed_joined ho h) |>.add rfl

theorem TypeTest.wellBracketed_pythonClass (test : TypeTest) :
    WellBracketed .python test.pythonClass := by
  cases test <;> exact .lit rfl

/-- A negation that is not folded into the test below it. -/
theorem Expr.wellBracketed_toPython_not {e : Expr} (hfold : e.foldsNegation = false)
    (he : ∀ {o : Code}, e.toPython = .ok o → WellBracketed .python o.text) {c : Code}
    (h : (Expr.not e).toPython = .ok c) : WellBracketed .python c.text := by
  rw [toPython_not hfold] at h
  obtain ⟨o, ho, h⟩ := bind_eq_ok.1 h
  cases pure_eq_ok.1 h
  exact (Shifts.lit rfl).wrap (Code.wellBracketed_operand (he ho))

/-! ## Expressions -/

theorem Expr.names_toPythonNamed : ∀ {named : List (String × Expr)} {ns : List (String × Code)},
    Expr.toPythonNamed named = .ok ns → ns.map Prod.fst = named.map Prod.fst
  | [], ns, h => by
      cases h
      rfl
  | (name, e) :: named, ns, h => by
      obtain ⟨c, _, h⟩ := bind_eq_ok.1 h
      obtain ⟨rest, hrest, h⟩ := bind_eq_ok.1 h
      cases pure_eq_ok.1 h
      rw [List.map_cons, List.map_cons, names_toPythonNamed hrest]

/-- The names of the arguments stay what they are. -/
theorem Expr.isInert_toPythonNamed (hok : OnlyInert ok)
    {named : List (String × Expr)} (hnames : ∀ a ∈ named, ok a.1 = true)
    {ns : List (String × Code)} (h : Expr.toPythonNamed named = .ok ns) :
    ∀ n ∈ ns, isInert n.1 = true := by
  intro n hn
  have hmem : n.1 ∈ named.map Prod.fst := by
    rw [← names_toPythonNamed h]
    exact List.mem_map.2 ⟨n, hn, rfl⟩
  obtain ⟨a, ha, hname⟩ := List.mem_map.1 hmem
  rw [← hname]
  exact hok a.1 (hnames a ha)

/-- A text without values among its parts. -/
theorem Part.exists_encode_toPythonAll : ∀ ps : List Part, Part.AllSpelled ok .python ps →
    ∀ {ss : List String}, Part.toPythonAll ps = .ok ss →
      ∃ texts : List String, ss = texts.map Text.FString.encode
  | [], _, ss, h => by
      cases h
      exact ⟨[], rfl⟩
  | .chars s :: ps, hspell, ss, h => by
      obtain ⟨rest, hrest, h⟩ := bind_eq_ok.1 h
      cases pure_eq_ok.1 h
      obtain ⟨texts, rfl⟩ := Part.exists_encode_toPythonAll ps hspell hrest
      exact ⟨s :: texts, rfl⟩
  | .value _ :: _, hspell, _, _ => absurd rfl hspell.1

mutual

/-- The Python code of an expression that is spelled by inert names is well bracketed. -/
theorem Expr.wellBracketed_toPython (hok : OnlyInert ok) :
    ∀ e : Expr, e.IsSpelled ok .python → ∀ {c : Code}, e.toPython = .ok c →
      WellBracketed .python c.text
  | .literal value, _, c, h => by
      cases h
      exact value.wellBracketed_toPython
  | .null, _, c, h | .omit, _, c, h => by
      cases h
      exact .lit rfl
  | .list items _, hspell, c, h => by
      obtain ⟨cs, hcs, h⟩ := bind_eq_ok.1 h
      cases pure_eq_ok.1 h
      have hitems := Expr.wellBracketed_toPythonAll hok items hspell hcs
      exact Shifts.lit rfl |>.wrap (Code.wellBracketed_commas hitems) |>.add rfl
  | .dict entries _, hspell, c, h => by
      obtain ⟨es, hes, h⟩ := bind_eq_ok.1 h
      cases pure_eq_ok.1 h
      have hvalues := Expr.wellBracketed_toPythonNamed hok entries hspell hes
      have hentries := Code.wellBracketed_entries ": "
        (Text.Quoted.wellBracketed_encode (by decide)) (.lit rfl) hvalues
      exact Shifts.lit rfl |>.wrap hentries |>.add rfl
  | .cast ty value, hspell, c, h => by
      obtain ⟨text, htext, h⟩ := bind_eq_ok.1 h
      obtain ⟨v, hv, h⟩ := bind_eq_ok.1 h
      cases pure_eq_ok.1 h
      refine Code.wellBracketed_callText (.lit rfl) fun s hs => ?_
      rcases List.mem_cons.1 hs with rfl | hs
      · exact Ty.wellBracketed_pythonText hok hspell.1 htext
      · rw [List.mem_singleton.1 hs]
        exact Expr.wellBracketed_toPython hok value hspell.2 hv
  | .item _ target key, hspell, c, h => by
      obtain ⟨tc, ht, h⟩ := bind_eq_ok.1 h
      obtain ⟨k, hk, h⟩ := bind_eq_ok.1 h
      cases pure_eq_ok.1 h
      exact Expr.wellBracketed_subscript (Expr.wellBracketed_toPython hok target hspell.1 ht)
        (Expr.wellBracketed_toPython hok key hspell.2 hk)
  | .itemOr .position target key fallback, hspell, c, h => by
      obtain ⟨tc, ht, h⟩ := bind_eq_ok.1 h
      obtain ⟨k, hk, h⟩ := bind_eq_ok.1 h
      obtain ⟨f, hf, h⟩ := bind_eq_ok.1 h
      cases pure_eq_ok.1 h
      have htarget := Expr.wellBracketed_toPython hok target hspell.1 ht
      have hkey := Expr.wellBracketed_toPython hok key hspell.2.1 hk
      have hfallback := Expr.wellBracketed_toPython hok fallback hspell.2.2 hf
      exact (Code.wellBracketed_base htarget).add rfl |>.wrap hkey |>.add rfl |>.wrap htarget
        |>.add rfl |>.wrap (Code.wellBracketed_operand hkey) |>.add rfl |>.wrap hfallback
  | .itemOr .key target key fallback, hspell, c, h => by
      obtain ⟨tc, ht, h⟩ := bind_eq_ok.1 h
      obtain ⟨k, hk, h⟩ := bind_eq_ok.1 h
      obtain ⟨f, hf, h⟩ := bind_eq_ok.1 h
      cases pure_eq_ok.1 h
      have htarget := Expr.wellBracketed_toPython hok target hspell.1 ht
      refine Code.wellBracketed_callText ((Code.wellBracketed_base htarget).add rfl) fun s hs => ?_
      rcases List.mem_cons.1 hs with rfl | hs
      · exact Expr.wellBracketed_toPython hok key hspell.2.1 hk
      · rw [List.mem_singleton.1 hs]
        exact Expr.wellBracketed_toPython hok fallback hspell.2.2 hf
  | .var name _, hspell, c, h => by
      cases h
      exact .of_isInert (hok name hspell)
  | .field name _, hspell, c, h => by
      cases h
      exact (Shifts.lit rfl).wrap (.of_isInert (hok name hspell))
  | .prop owner name _, hspell, c, h => by
      obtain ⟨o, ho, h⟩ := bind_eq_ok.1 h
      cases pure_eq_ok.1 h
      have howner := Code.wellBracketed_base (Expr.wellBracketed_toPython hok owner hspell.1 ho)
      exact howner.add rfl |>.wrap (.of_isInert (hok name hspell.2))
  | .call callee _ args named, hspell, c, h => by
      obtain ⟨cs, hcs, h⟩ := bind_eq_ok.1 h
      obtain ⟨ns, hns, h⟩ := bind_eq_ok.1 h
      cases pure_eq_ok.1 h
      exact Code.wellBracketed_callText (.of_isInert (hok callee hspell.1))
        (Code.wellBracketed_pythonArgs (Expr.wellBracketed_toPythonAll hok args hspell.2.1 hcs)
          (Expr.isInert_toPythonNamed hok hspell.2.2.2 hns)
          (Expr.wellBracketed_toPythonNamed hok named hspell.2.2.1 hns))
  | .apply callee _ args named, hspell, c, h => by
      obtain ⟨f, hf, h⟩ := bind_eq_ok.1 h
      obtain ⟨cs, hcs, h⟩ := bind_eq_ok.1 h
      obtain ⟨ns, hns, h⟩ := bind_eq_ok.1 h
      cases pure_eq_ok.1 h
      have hcallee := Code.wellBracketed_base (Expr.wellBracketed_toPython hok callee hspell.1 hf)
      exact Code.wellBracketed_callText hcallee
        (Code.wellBracketed_pythonArgs (Expr.wellBracketed_toPythonAll hok args hspell.2.1 hcs)
          (Expr.isInert_toPythonNamed hok hspell.2.2.2 hns)
          (Expr.wellBracketed_toPythonNamed hok named hspell.2.2.1 hns))
  | .text parts, hspell, c, h => by
      obtain ⟨ps, hps, h⟩ := bind_eq_ok.1 h
      cases pure_eq_ok.1 h
      obtain ⟨texts, rfl⟩ := Part.exists_encode_toPythonAll parts hspell hps
      exact (Text.FString.hides texts []).shifts
  | .only _ _, hspell, _, _ | .perTarget _, hspell, _, _ => hspell.elim
  | .junction _ [], _, c, h => nomatch h
  | .junction op (e :: es), hspell, c, h => by
      obtain ⟨cs, hcs, h⟩ := bind_eq_ok.1 h
      cases pure_eq_ok.1 h
      exact (op.hides_toPython (Expr.wellBracketed_toPythonAll hok (e :: es) hspell hcs)).shifts
  | .not operand, hspell, c, h => by
      have hoperand : ∀ {o : Code}, operand.toPython = .ok o → WellBracketed .python o.text :=
        fun ho => Expr.wellBracketed_toPython hok operand hspell ho
      cases operand with
      | not inner => exact Expr.wellBracketed_toPython hok inner hspell h
      | isNull negated value =>
          obtain ⟨v, hv, h⟩ := bind_eq_ok.1 h
          cases pure_eq_ok.1 h
          exact Code.wellBracketed_pythonIsNull _
            (Expr.wellBracketed_toPython hok value hspell hv)
      | compare op negated left right =>
          obtain ⟨l, hl, h⟩ := bind_eq_ok.1 h
          obtain ⟨r, hr, h⟩ := bind_eq_ok.1 h
          cases pure_eq_ok.1 h
          exact op.wellBracketed_toPython _ (Expr.wellBracketed_toPython hok left hspell.1 hl)
            (Expr.wellBracketed_toPython hok right hspell.2 hr)
      | _ => exact Expr.wellBracketed_toPython_not rfl hoperand h
  | .length value, hspell, c, h => by
      obtain ⟨v, hv, h⟩ := bind_eq_ok.1 h
      cases pure_eq_ok.1 h
      refine Code.wellBracketed_callText (.lit rfl) fun s hs => ?_
      rw [List.mem_singleton.1 hs]
      exact Expr.wellBracketed_toPython hok value hspell hv
  | .isNull negated value, hspell, c, h => by
      obtain ⟨v, hv, h⟩ := bind_eq_ok.1 h
      cases pure_eq_ok.1 h
      exact Code.wellBracketed_pythonIsNull _ (Expr.wellBracketed_toPython hok value hspell hv)
  | .compare op negated left right, hspell, c, h => by
      obtain ⟨l, hl, h⟩ := bind_eq_ok.1 h
      obtain ⟨r, hr, h⟩ := bind_eq_ok.1 h
      cases pure_eq_ok.1 h
      exact op.wellBracketed_toPython _ (Expr.wellBracketed_toPython hok left hspell.1 hl)
        (Expr.wellBracketed_toPython hok right hspell.2 hr)
  | .isType test value, hspell, c, h => by
      obtain ⟨v, hv, h⟩ := bind_eq_ok.1 h
      cases pure_eq_ok.1 h
      refine Code.wellBracketed_callText (.lit rfl) fun s hs => ?_
      rcases List.mem_cons.1 hs with rfl | hs
      · exact Expr.wellBracketed_toPython hok value hspell hv
      · rw [List.mem_singleton.1 hs]
        exact test.wellBracketed_pythonClass
  | .supplied value, hspell, c, h => by
      obtain ⟨v, hv, h⟩ := bind_eq_ok.1 h
      cases pure_eq_ok.1 h
      refine (Shifts.lit rfl).wrap (Code.wellBracketed_callText (.lit rfl) fun s hs => ?_)
      rcases List.mem_cons.1 hs with rfl | hs
      · exact Expr.wellBracketed_toPython hok value hspell hv
      · rw [List.mem_singleton.1 hs]
        exact .lit rfl
  | .await value, hspell, c, h => by
      obtain ⟨v, hv, h⟩ := bind_eq_ok.1 h
      cases pure_eq_ok.1 h
      have hvalue := Code.wellBracketed_base (Expr.wellBracketed_toPython hok value hspell hv)
      exact (Shifts.lit rfl).wrap hvalue

theorem Expr.wellBracketed_toPythonAll (hok : OnlyInert ok) :
    ∀ es : List Expr, Expr.AllSpelled ok .python es → ∀ {cs : List Code},
      Expr.toPythonAll es = .ok cs → ∀ c ∈ cs, WellBracketed .python c.text
  | [], _, cs, h => by
      cases h
      exact fun c hc => nomatch hc
  | e :: es, hspell, cs, h => by
      obtain ⟨c, hc, h⟩ := bind_eq_ok.1 h
      obtain ⟨rest, hrest, h⟩ := bind_eq_ok.1 h
      cases pure_eq_ok.1 h
      intro c' hc'
      rcases List.mem_cons.1 hc' with rfl | hc'
      · exact Expr.wellBracketed_toPython hok e hspell.1 hc
      · exact Expr.wellBracketed_toPythonAll hok es hspell.2 hrest c' hc'

theorem Expr.wellBracketed_toPythonNamed (hok : OnlyInert ok) :
    ∀ es : List (String × Expr), Expr.NamedSpelled ok .python es → ∀ {cs : List (String × Code)},
      Expr.toPythonNamed es = .ok cs → ∀ c ∈ cs, WellBracketed .python c.2.text
  | [], _, cs, h => by
      cases h
      exact fun c hc => nomatch hc
  | (name, e) :: es, hspell, cs, h => by
      obtain ⟨c, hc, h⟩ := bind_eq_ok.1 h
      obtain ⟨rest, hrest, h⟩ := bind_eq_ok.1 h
      cases pure_eq_ok.1 h
      intro c' hc'
      rcases List.mem_cons.1 hc' with rfl | hc'
      · exact Expr.wellBracketed_toPython hok e hspell.1 hc
      · exact Expr.wellBracketed_toPythonNamed hok es hspell.2 hrest c' hc'

end

end Polyglot
