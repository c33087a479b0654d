import Polyglot.Proofs.Brackets.Python

/-!
# Code with tight tags

Code that is tagged as an atom or as an access hides its operators. The tag of a node follows from
its form: most forms are enclosed in brackets, and what stands in front of a selector or an argument
list is tight by its own tag or parenthesized.

* `Code.TagHolds` : code that is as tight as its tag says.
* `Code.tight_base` : what stands in front of a selector.
* `Expr.tagHolds_toPython`, `Expr.tagHolds_toTypeScript`, `Expr.tagHolds_toPhp` : expressions.
-/

set_option autoImplicit false

namespace Polyglot

open Outcome Brackets

variable {t : Target} {ok : String → Bool}

/-- If the tag binds as tightly as an access, the code hides its operators. -/
def Code.TagHolds (t : Target) (c : Code) : Prop :=
  c.tag.rank ≤ Precedence.access.rank → Tight t [] c.text

namespace Code

/-- Nothing is asked of code with a loose tag. -/
theorem TagHolds.loose {c : Code} (h : c.tag = .product ∨ c.tag = .sum) : c.TagHolds t := by
  intro hrank
  rcases h with h | h
  · rw [h] at hrank
    exact absurd hrank (by decide)
  · rw [h] at hrank
    exact absurd hrank (by decide)

/-- The text in front of a selector, a subscript or an argument list. -/
theorem tight_base {c : Code} (hc : c.TagHolds t) (hbrackets : WellBracketed t c.text) :
    Tight t [] c.base := by
  rw [base]
  by_cases h : Precedence.access.rank < c.tag.rank
  · rw [if_pos h]
    exact Tight.of_hides (.lit rfl) |>.inside hbrackets |>.add rfl
  · rw [if_neg h]
    exact hc (Nat.le_of_not_lt h)

theorem tight_subscript {target key : Code} (ht : target.TagHolds t)
    (htarget : WellBracketed t target.text) (hkey : WellBracketed t key.text) :
    Tight t [] (target.base ++ "[" ++ key.text ++ "]") :=
  (tight_base ht htarget).add rfl |>.inside hkey |>.add rfl

/-- Arguments in parentheses behind what is called. -/
theorem tight_call {callee args : String} (hcallee : Tight t [] callee)
    (h : WellBracketed t args) : Tight t [] (callee ++ "(" ++ args ++ ")") :=
  hcallee.add rfl |>.inside h |>.add rfl

theorem tight_callText {callee : String} {args : List String} (hcallee : Tight .python [] callee)
    (h : ∀ s ∈ args, WellBracketed .python s) : Tight .python [] (callText callee args) :=
  tight_call hcallee (.intercalate (.lit rfl) h)

theorem tight_typeScriptCall {callee : String} (construct : Bool) {args : List Code}
    (hcallee : Tight .typescript [] callee)
    (h : ∀ c ∈ args, WellBracketed .typescript c.text) :
    Tight .typescript [] (typeScriptCall callee construct args) := by
  have hargs := wellBracketed_commas h
  cases construct with
  | false =>
      have hnone : (if false = true then "new " else "") ++ callee = callee := String.empty_append
      rw [typeScriptCall, hnone]
      exact tight_call hcallee hargs
  | true => exact tight_call hcallee.new hargs

theorem tagHolds_phpCall {callee : String} (construct : Bool) {args : List Code}
    (hcallee : Tight .php [] callee) (h : ∀ c ∈ args, WellBracketed .php c.text) :
    (phpCall callee construct args).TagHolds .php := by
  cases construct with
  | false => exact fun _ => tight_call hcallee (wellBracketed_commas h)
  | true => exact .loose (.inl rfl)

end Code

/-! ## Python -/

/-- The tag of an expression in Python holds. -/
theorem Expr.tagHolds_toPython (hok : OnlySolid ok) : ∀ (e : Expr) {c : Code},
    e.toPython = .ok c → e.IsSpelled ok .python → c.TagHolds .python
  | .literal value, c, h, _ => by
      cases h
      exact fun _ => .of_hides value.hides_toPython
  | .null, c, h, _ => by
      cases h
      exact fun _ => .of_hides (.lit rfl)
  | .omit, c, h, _ => by
      cases h
      exact .loose (.inl rfl)
  | .list items _, c, h, hspell => by
      obtain ⟨cs, hcs, h⟩ := bind_eq_ok.1 h
      cases pure_eq_ok.1 h
      have hitems := Expr.wellBracketed_toPythonAll hok.inert items hspell hcs
      exact fun _ => .of_hides
        (Hides.lit rfl |>.inside (Code.wellBracketed_commas hitems) |>.add rfl)
  | .dict entries _, c, h, hspell => by
      obtain ⟨es, hes, h⟩ := bind_eq_ok.1 h
      cases pure_eq_ok.1 h
      have hvalues := Expr.wellBracketed_toPythonNamed hok.inert entries hspell hes
      have hentries := Code.wellBracketed_entries ": "
        (Text.Quoted.wellBracketed_encode (by decide)) (.lit rfl) hvalues
      exact fun _ => .of_hides (Hides.lit rfl |>.inside hentries |>.add rfl)
  | .cast ty value, c, h, hspell => by
      obtain ⟨text, htext, h⟩ := bind_eq_ok.1 h
      obtain ⟨v, hv, h⟩ := bind_eq_ok.1 h
      cases pure_eq_ok.1 h
      refine fun _ => Code.tight_callText (.of_hides (.lit rfl)) fun s hs => ?_
      rcases List.mem_cons.1 hs with rfl | hs
      · exact Ty.wellBracketed_pythonText hok.inert hspell.1 htext
      · rw [List.mem_singleton.1 hs]
        exact Expr.wellBracketed_toPython hok.inert value hspell.2 hv
  | .item _ target key, c, h, hspell => by
      obtain ⟨tc, ht, h⟩ := bind_eq_ok.1 h
      obtain ⟨k, hk, h⟩ := bind_eq_ok.1 h
      cases pure_eq_ok.1 h
      exact fun _ => Code.tight_subscript (Expr.tagHolds_toPython hok target ht hspell.1)
        (Expr.wellBracketed_toPython hok.inert target hspell.1 ht)
        (Expr.wellBracketed_toPython hok.inert key hspell.2 hk)
  | .itemOr .position target key fallback, c, h, _ => by
      obtain ⟨_, _, h⟩ := bind_eq_ok.1 h
      obtain ⟨_, _, h⟩ := bind_eq_ok.1 h
      obtain ⟨_, _, h⟩ := bind_eq_ok.1 h
      cases pure_eq_ok.1 h
      exact .loose (.inr rfl)
  | .itemOr .key target key fallback, c, h, hspell => by
      obtain ⟨tc, ht, h⟩ := bind_eq_ok.1 h
      obtain ⟨k, hk, h⟩ := bind_eq_ok.1 h
      obtain ⟨f, hf, h⟩ := bind_eq_ok.1 h
      cases pure_eq_ok.1 h
      have htarget := Code.tight_base (Expr.tagHolds_toPython hok target ht hspell.1)
        (Expr.wellBracketed_toPython hok.inert target hspell.1 ht)
      refine fun _ => Code.tight_callText (htarget.add rfl) fun s hs => ?_
      rcases List.mem_cons.1 hs with rfl | hs
      · exact Expr.wellBracketed_toPython hok.inert key hspell.2.1 hk
      · rw [List.mem_singleton.1 hs]
        exact Expr.wellBracketed_toPython hok.inert fallback hspell.2.2 hf
  | .var name _, c, h, hspell => by
      cases h
      exact fun _ => .of_hides (.of_isSolid (hok _ hspell))
  | .field name _, c, h, hspell => by
      cases h
      exact fun _ => (Tight.of_hides (.lit rfl)).append (.of_isSolid (hok _ hspell))
  | .prop owner name _, c, h, hspell => by
      obtain ⟨o, ho, h⟩ := bind_eq_ok.1 h
      cases pure_eq_ok.1 h
      have howner := Code.tight_base (Expr.tagHolds_toPython hok owner ho hspell.1)
        (Expr.wellBracketed_toPython hok.inert owner hspell.1 ho)
      exact fun _ => howner.add rfl |>.append (.of_isSolid (hok _ hspell.2))
  | .call callee _ args named, c, h, hspell => by
      obtain ⟨cs, hcs, h⟩ := bind_eq_ok.1 h
      obtain ⟨ns, hns, h⟩ := bind_eq_ok.1 h
      cases pure_eq_ok.1 h
      exact fun _ => Code.tight_callText (.of_hides (.of_isSolid (hok _ hspell.1)))
        (Code.wellBracketed_pythonArgs
          (Expr.wellBracketed_toPythonAll hok.inert args hspell.2.1 hcs)
          (Expr.isInert_toPythonNamed hok.inert hspell.2.2.2 hns)
          (Expr.wellBracketed_toPythonNamed hok.inert named hspell.2.2.1 hns))
  | .apply callee _ args named, c, h, hspell => by
      obtain ⟨f, hf, h⟩ := bind_eq_ok.1 h
      obtain ⟨cs, hcs, h⟩ := bind_eq_ok.1 h
      obtain ⟨ns, hns, h⟩ := bind_eq_ok.1 h
      cases pure_eq_ok.1 h
      have hcallee := Code.tight_base (Expr.tagHolds_toPython hok callee hf hspell.1)
        (Expr.wellBracketed_toPython hok.inert callee hspell.1 hf)
      exact fun _ => Code.tight_callText hcallee
        (Code.wellBracketed_pythonArgs
          (Expr.wellBracketed_toPythonAll hok.inert args hspell.2.1 hcs)
          (Expr.isInert_toPythonNamed hok.inert hspell.2.2.2 hns)
          (Expr.wellBracketed_toPythonNamed hok.inert named hspell.2.2.1 hns))
  | .text parts, c, h, hspell => by
      obtain ⟨ps, hps, h⟩ := bind_eq_ok.1 h
      cases pure_eq_ok.1 h
      obtain ⟨texts, rfl⟩ := Part.exists_encode_toPythonAll parts hspell hps
      exact fun _ => .of_hides (Text.FString.hides texts [])
  | .only _ _, _, _, hspell | .perTarget _, _, _, hspell => hspell.elim
  | .junction _ [], c, h, _ => by cases h
  | .junction op (e :: es), c, h, hspell => by
      obtain ⟨cs, hcs, h⟩ := bind_eq_ok.1 h
      cases pure_eq_ok.1 h
      have hoperands := Expr.wellBracketed_toPythonAll hok.inert (e :: es) hspell hcs
      exact fun _ => .of_hides (op.hides_toPython hoperands)
  | .not operand, c, h, hspell => by
      cases operand with
      | not inner => exact Expr.tagHolds_toPython hok inner h hspell
      | isNull _ _ =>
          obtain ⟨_, _, h⟩ := bind_eq_ok.1 h
          cases pure_eq_ok.1 h
          exact .loose (.inr rfl)
      | compare _ _ _ _ =>
          obtain ⟨_, _, h⟩ := bind_eq_ok.1 h
          obtain ⟨_, _, h⟩ := bind_eq_ok.1 h
          cases pure_eq_ok.1 h
          exact .loose (.inl rfl)
      | _ =>
          rw [Expr.toPython_not rfl] at h
          obtain ⟨_, _, h⟩ := bind_eq_ok.1 h
          cases pure_eq_ok.1 h
          exact .loose (.inl rfl)
  | .length value, c, h, hspell => by
      obtain ⟨v, hv, h⟩ := bind_eq_ok.1 h
      cases pure_eq_ok.1 h
      refine fun _ => Code.tight_callText (.of_hides (.lit rfl)) fun s hs => ?_
      rw [List.mem_singleton.1 hs]
      exact Expr.wellBracketed_toPython hok.inert value hspell hv
  | .isNull _ _, c, h, _ => by
      obtain ⟨_, _, h⟩ := bind_eq_ok.1 h
      cases pure_eq_ok.1 h
      exact .loose (.inr rfl)
  | .compare _ _ _ _, c, h, _ => by
      obtain ⟨_, _, h⟩ := bind_eq_ok.1 h
      obtain ⟨_, _, h⟩ := bind_eq_ok.1 h
      cases pure_eq_ok.1 h
      exact .loose (.inl rfl)
  | .isType test value, c, h, hspell => by
      obtain ⟨v, hv, h⟩ := bind_eq_ok.1 h
      cases pure_eq_ok.1 h
      refine fun _ => Code.tight_callText (.of_hides (.lit rfl)) fun s hs => ?_
      rcases List.mem_cons.1 hs with rfl | hs
      · exact Expr.wellBracketed_toPython hok.inert value hspell hv
      · rw [List.mem_singleton.1 hs]
        exact test.wellBracketed_pythonClass
  | .supplied _, c, h, _ | .await _, c, h, _ => by
      obtain ⟨_, _, h⟩ := bind_eq_ok.1 h
      cases pure_eq_ok.1 h
      exact .loose (.inl rfl)

/-! ## TypeScript -/

theorem TypeTest.tagHolds_toTypeScript (test : TypeTest) {c : Code}
    (h : WellBracketed .typescript c.text) : (test.toTypeScript c).TagHolds .typescript := by
  cases test with
  | str | int | bool => exact .loose (.inl rfl)
  | list =>
      exact fun _ => .of_hides
        (Hides.lit rfl |>.inside (Code.wellBracketed_base h) |>.add rfl)

/-- The tag of an expression in TypeScript holds. -/
theorem Expr.tagHolds_toTypeScript (hok : OnlySolid ok) : ∀ (e : Expr) {c : Code},
    e.toTypeScript = .ok c → e.IsSpelled ok .typescript → c.TagHolds .typescript
  | .literal value, c, h, _ => by
      cases h
      exact fun _ => .of_hides value.hides_toTypeScript
  | .null, c, h, _ | .omit, c, h, _ => by
      cases h
      exact fun _ => .of_hides (.lit rfl)
  | .list items _, c, h, hspell => by
      obtain ⟨cs, hcs, h⟩ := bind_eq_ok.1 h
      cases pure_eq_ok.1 h
      have hitems := Expr.wellBracketed_toTypeScriptAll hok.inert items hspell hcs
      exact fun _ => .of_hides
        (Hides.lit rfl |>.inside (Code.wellBracketed_commas hitems) |>.add rfl)
  | .dict entries _, c, h, hspell => by
      obtain ⟨es, hes, h⟩ := bind_eq_ok.1 h
      cases pure_eq_ok.1 h
      have hvalues := Expr.wellBracketed_toTypeScriptNamed hok.inert entries hspell hes
      have hentries := Code.wellBracketed_entries ": "
        (Text.Quoted.wellBracketed_encode (by decide)) (.lit rfl) hvalues
      exact fun _ => .of_hides (Hides.lit rfl |>.inside hentries |>.add rfl)
  | .cast ty value, c, h, hspell => by
      obtain ⟨v, hv, h⟩ := bind_eq_ok.1 h
      obtain ⟨text, htext, h⟩ := bind_eq_ok.1 h
      cases pure_eq_ok.1 h
      have hvalue := Code.wellBracketed_base
        (Expr.wellBracketed_toTypeScript hok.inert value hspell.2 hv)
      have hty := Ty.IsSpelled.wellBracketed_typeScriptText hok.inert hspell.1 htext
      exact fun _ => .of_hides
        (Hides.lit rfl |>.inside hvalue |>.add rfl |>.inside hty |>.add rfl)
  | .item _ target key, c, h, hspell => by
      obtain ⟨tc, ht, h⟩ := bind_eq_ok.1 h
      obtain ⟨k, hk, h⟩ := bind_eq_ok.1 h
      cases pure_eq_ok.1 h
      exact fun _ => Code.tight_subscript (Expr.tagHolds_toTypeScript hok target ht hspell.1)
        (Expr.wellBracketed_toTypeScript hok.inert target hspell.1 ht)
        (Expr.wellBracketed_toTypeScript hok.inert key hspell.2 hk)
  | .itemOr _ target key fallback, c, h, _ => by
      obtain ⟨_, _, h⟩ := bind_eq_ok.1 h
      obtain ⟨_, _, h⟩ := bind_eq_ok.1 h
      obtain ⟨_, _, h⟩ := bind_eq_ok.1 h
      cases pure_eq_ok.1 h
      exact .loose (.inr rfl)
  | .var name _, c, h, hspell => by
      cases h
      exact fun _ => .of_hides (.of_isSolid (hok _ hspell))
  | .field name _, c, h, hspell => by
      cases h
      exact fun _ => (Tight.of_hides (.lit rfl)).append (.of_isSolid (hok _ hspell))
  | .prop owner name _, c, h, hspell => by
      obtain ⟨o, ho, h⟩ := bind_eq_ok.1 h
      cases pure_eq_ok.1 h
      have howner := Code.tight_base (Expr.tagHolds_toTypeScript hok owner ho hspell.1)
        (Expr.wellBracketed_toTypeScript hok.inert owner hspell.1 ho)
      exact fun _ => howner.add rfl |>.append (.of_isSolid (hok _ hspell.2))
  | .call _ _ _ (_ :: _), c, h, _ | .apply _ _ _ (_ :: _), c, h, _ => by cases h
  | .call callee construct args [], c, h, hspell => by
      obtain ⟨cs, hcs, h⟩ := bind_eq_ok.1 h
      cases pure_eq_ok.1 h
      exact fun _ => Code.tight_typeScriptCall construct
        (.of_hides (.of_isSolid (hok _ hspell.1)))
        (Expr.wellBracketed_toTypeScriptAll hok.inert args hspell.2.1 hcs)
  | .apply callee construct args [], c, h, hspell => by
      obtain ⟨f, hf, h⟩ := bind_eq_ok.1 h
      obtain ⟨cs, hcs, h⟩ := bind_eq_ok.1 h
      cases pure_eq_ok.1 h
      have hcallee := Code.tight_base (Expr.tagHolds_toTypeScript hok callee hf hspell.1)
        (Expr.wellBracketed_toTypeScript hok.inert callee hspell.1 hf)
      exact fun _ => Code.tight_typeScriptCall construct hcallee
        (Expr.wellBracketed_toTypeScriptAll hok.inert args hspell.2.1 hcs)
  | .text parts, c, h, hspell => by
      obtain ⟨ps, hps, h⟩ := bind_eq_ok.1 h
      cases pure_eq_ok.1 h
      have hpieces := Part.isPiece_toTypeScriptAll hok.inert parts hspell hps
      exact fun _ => .of_hides (Text.Template.hides hpieces [])
  | .only _ _, _, _, hspell | .perTarget _, _, _, hspell => hspell.elim
  | .junction _ [], c, h, _ => by cases h
  | .junction op (e :: es), c, h, _ => by
      obtain ⟨_, _, h⟩ := bind_eq_ok.1 h
      cases pure_eq_ok.1 h
      exact .loose (.inl rfl)
  | .not operand, c, h, hspell => by
      cases operand with
      | not inner => exact Expr.tagHolds_toTypeScript hok inner h hspell
      | isNull _ _ =>
          obtain ⟨_, _, h⟩ := bind_eq_ok.1 h
          cases pure_eq_ok.1 h
          exact .loose (.inr rfl)
      | compare _ _ _ _ =>
          obtain ⟨_, _, h⟩ := bind_eq_ok.1 h
          obtain ⟨_, _, h⟩ := bind_eq_ok.1 h
          cases pure_eq_ok.1 h
          exact .loose (.inl rfl)
      | _ =>
          rw [Expr.toTypeScript_not rfl] at h
          obtain ⟨_, _, h⟩ := bind_eq_ok.1 h
          cases pure_eq_ok.1 h
          exact .loose (.inl rfl)
  | .length value, c, h, hspell => by
      obtain ⟨v, hv, h⟩ := bind_eq_ok.1 h
      cases pure_eq_ok.1 h
      have hvalue := Code.tight_base (Expr.tagHolds_toTypeScript hok value hv hspell)
        (Expr.wellBracketed_toTypeScript hok.inert value hspell hv)
      exact fun _ => hvalue.add rfl
  | .isNull _ _, c, h, _ => by
      obtain ⟨_, _, h⟩ := bind_eq_ok.1 h
      cases pure_eq_ok.1 h
      exact .loose (.inr rfl)
  | .compare _ _ _ _, c, h, _ => by
      obtain ⟨_, _, h⟩ := bind_eq_ok.1 h
      obtain ⟨_, _, h⟩ := bind_eq_ok.1 h
      cases pure_eq_ok.1 h
      exact .loose (.inl rfl)
  | .isType test value, c, h, hspell => by
      obtain ⟨v, hv, h⟩ := bind_eq_ok.1 h
      cases pure_eq_ok.1 h
      exact test.tagHolds_toTypeScript
        (Expr.wellBracketed_toTypeScript hok.inert value hspell hv)
  | .supplied _, c, h, _ | .await _, c, h, _ => by
      obtain ⟨_, _, h⟩ := bind_eq_ok.1 h
      cases pure_eq_ok.1 h
      exact .loose (.inl rfl)

/-! ## PHP -/

/-- The tag of an expression in PHP holds. -/
theorem Expr.tagHolds_toPhp (hok : OnlySolid ok) : ∀ (e : Expr) {c : Code},
    e.toPhp = .ok c → e.IsSpelled ok .php → c.TagHolds .php
  | .literal value, c, h, _ => by
      cases h
      exact fun _ => .of_hides value.hides_toPhp
  | .null, c, h, _ | .text [], c, h, _ => by
      cases h
      exact fun _ => .of_hides (.lit rfl)
  | .omit, c, h, _ | .supplied _, c, h, _ | .await _, c, h, _ => by cases h
  | .list items _, c, h, hspell => by
      obtain ⟨cs, hcs, h⟩ := bind_eq_ok.1 h
      cases pure_eq_ok.1 h
      have hitems := Expr.wellBracketed_toPhpAll hok.inert items hspell hcs
      exact fun _ => .of_hides
        (Hides.lit rfl |>.inside (Code.wellBracketed_commas hitems) |>.add rfl)
  | .dict entries _, c, h, hspell => by
      obtain ⟨es, hes, h⟩ := bind_eq_ok.1 h
      cases pure_eq_ok.1 h
      have hvalues := Expr.wellBracketed_toPhpNamed hok.inert entries hspell hes
      have hentries := Code.wellBracketed_entries " => " Text.SingleQuoted.wellBracketed_encode
        (.lit rfl) hvalues
      exact fun _ => .of_hides (Hides.lit rfl |>.inside hentries |>.add rfl)
  -- A cast is its value, so it has the tag of the value as well.
  | .cast _ value, c, h, hspell => Expr.tagHolds_toPhp hok value h hspell.2
  | .item _ target key, c, h, hspell => by
      obtain ⟨tc, ht, h⟩ := bind_eq_ok.1 h
      obtain ⟨k, hk, h⟩ := bind_eq_ok.1 h
      cases pure_eq_ok.1 h
      exact fun _ => Code.tight_subscript (Expr.tagHolds_toPhp hok target ht hspell.1)
        (Expr.wellBracketed_toPhp hok.inert target hspell.1 ht)
        (Expr.wellBracketed_toPhp hok.inert key hspell.2 hk)
  | .itemOr _ target key fallback, c, h, _ => by
      obtain ⟨_, _, h⟩ := bind_eq_ok.1 h
      obtain ⟨_, _, h⟩ := bind_eq_ok.1 h
      obtain ⟨_, _, h⟩ := bind_eq_ok.1 h
      cases pure_eq_ok.1 h
      exact .loose (.inl rfl)
  | .var name _, c, h, hspell | .field name _, c, h, hspell => by
      cases h
      exact fun _ => (Tight.of_hides (.lit rfl)).append (.of_isSolid (hok _ hspell))
  | .prop owner name _, c, h, hspell => by
      obtain ⟨o, ho, h⟩ := bind_eq_ok.1 h
      cases pure_eq_ok.1 h
      have howner := Code.tight_base (Expr.tagHolds_toPhp hok owner ho hspell.1)
        (Expr.wellBracketed_toPhp hok.inert owner hspell.1 ho)
      exact fun _ => howner.add rfl |>.append (.of_isSolid (hok _ hspell.2))
  | .call _ _ _ (_ :: _), c, h, _ | .apply _ _ _ (_ :: _), c, h, _ => by cases h
  | .call callee construct args [], c, h, hspell => by
      obtain ⟨cs, hcs, h⟩ := bind_eq_ok.1 h
      cases pure_eq_ok.1 h
      exact Code.tagHolds_phpCall construct (.of_hides (.of_isSolid (hok _ hspell.1)))
        (Expr.wellBracketed_toPhpAll hok.inert args hspell.2.1 hcs)
  | .apply callee construct args [], c, h, hspell => by
      obtain ⟨cs, hcs, h⟩ := bind_eq_ok.1 h
      obtain ⟨f, hf, h⟩ := bind_eq_ok.1 h
      cases pure_eq_ok.1 h
      have hcallee := Code.tight_base (Expr.tagHolds_toPhp hok callee hf hspell.1)
        (Expr.wellBracketed_toPhp hok.inert callee hspell.1 hf)
      exact Code.tagHolds_phpCall construct hcallee
        (Expr.wellBracketed_toPhpAll hok.inert args hspell.2.1 hcs)
  | .text (p :: parts), c, h, _ => by
      obtain ⟨_, _, h⟩ := bind_eq_ok.1 h
      cases pure_eq_ok.1 h
      exact .loose (.inl rfl)
  | .only _ _, _, _, hspell | .perTarget _, _, _, hspell => hspell.elim
  | .junction _ [], c, h, _ => by cases h
  | .junction op (e :: es), c, h, _ => by
      obtain ⟨_, _, h⟩ := bind_eq_ok.1 h
      cases pure_eq_ok.1 h
      exact .loose (.inl rfl)
  | .not operand, c, h, hspell => by
      cases operand with
      | not inner => exact Expr.tagHolds_toPhp hok inner h hspell
      | isNull _ _ =>
          obtain ⟨_, _, h⟩ := bind_eq_ok.1 h
          cases pure_eq_ok.1 h
          exact .loose (.inl rfl)
      | compare _ _ _ _ =>
          obtain ⟨_, _, h⟩ := bind_eq_ok.1 h
          obtain ⟨_, _, h⟩ := bind_eq_ok.1 h
          cases pure_eq_ok.1 h
          exact .loose (.inl rfl)
      | _ =>
          rw [Expr.toPhp_not rfl] at h
          obtain ⟨_, _, h⟩ := bind_eq_ok.1 h
          cases pure_eq_ok.1 h
          exact .loose (.inl rfl)
  | .length value, c, h, hspell => by
      obtain ⟨v, hv, h⟩ := bind_eq_ok.1 h
      cases pure_eq_ok.1 h
      have hvalue := Expr.wellBracketed_toPhp hok.inert value hspell hv
      exact fun _ => .of_hides (Hides.lit rfl |>.inside hvalue |>.add rfl)
  | .isNull _ _, c, h, _ => by
      obtain ⟨_, _, h⟩ := bind_eq_ok.1 h
      cases pure_eq_ok.1 h
      exact .loose (.inl rfl)
  | .compare _ _ _ _, c, h, _ => by
      obtain ⟨_, _, h⟩ := bind_eq_ok.1 h
      obtain ⟨_, _, h⟩ := bind_eq_ok.1 h
      cases pure_eq_ok.1 h
      exact .loose (.inl rfl)
  | .isType test value, c, h, hspell => by
      obtain ⟨v, hv, h⟩ := bind_eq_ok.1 h
      cases pure_eq_ok.1 h
      have hvalue := Expr.wellBracketed_toPhp hok.inert value hspell hv
      exact fun _ => .of_hides (test.hides_phpFunction.add rfl |>.inside hvalue |>.add rfl)

end Polyglot
