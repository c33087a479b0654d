import Polyglot.Expr.Python
import Polyglot.Proofs.Expr.Negation
import Polyglot.Proofs.Expr.Token
import Polyglot.Proofs.Outcome
import Polyglot.Proofs.Text.CodeLine

/-!
# Beginnings of Python expressions

The text of an expression in Python begins with code unless a name or code of the caller's that
stands first in it does not.

* `Expr.LeadsWithCode` : what the caller has to see to.
* `Expr.startsWithCode_toPython` : the text begins with code.
-/

set_option autoImplicit false

namespace Polyglot

open Outcome

/-- The name or the code of the caller's that stands first in the Python text of an expression, if
there is one, begins with code. -/
def Expr.LeadsWithCode : Expr → Prop
  | .var name _ | .call name _ _ _ => Text.StartsWithCode name
  | .only .python code => Text.StartsWithCode code.text
  | .perTarget codes => ∀ code ∈ codes.python, Text.StartsWithCode code.text
  | .item _ leading _ | .itemOr _ leading _ _ | .prop leading _ _ | .apply leading _ _ _
  | .not leading | .isNull _ leading | .compare _ _ leading _ => leading.LeadsWithCode
  | .literal _ | .null | .omit | .list _ _ | .dict _ _ | .cast _ _ | .field _ _ | .text _
  | .only _ _ | .junction _ _ | .length _ | .isType _ _ | .supplied _ | .await _ => True

/-! ## Forms of code -/

theorem Literal.startsWithCode_toPython (v : Literal) : Text.StartsWithCode v.toPython := by
  cases v with
  | bool b => cases b <;> decide
  | int n =>
      obtain ⟨d, ds, hds, h | h⟩ := Token.exists_digits n
      · exact .of_isWordChar h (Token.isWordChar_of_isDigit (hds d (List.mem_cons_self ..)))
      · exact .of_head h (by decide) (by decide)
  | str s =>
      have h : (Text.Quoted.encode s).toList = Text.Quoted.encodeChars s.toList :=
        String.toList_ofList
      rw [Text.Quoted.encodeChars] at h
      rcases Text.Quoted.mark_eq s.toList with hmark | hmark
      · rw [hmark] at h
        exact .of_head h (by decide) (by decide)
      · rw [hmark] at h
        exact .of_head h (by decide) (by decide)

namespace Code

variable {c : Code}

theorem startsWithCode_base (h : Text.StartsWithCode c.text) : Text.StartsWithCode c.base := by
  rw [base]
  split
  · exact .append (.append (by decide) _) _
  · exact h

theorem startsWithCode_operand (h : Text.StartsWithCode c.text) : Text.StartsWithCode c.operand :=
  startsWithCode_base h

theorem startsWithCode_isNull (h : Text.StartsWithCode c.text) (negated : Bool) :
    Text.StartsWithCode (c.pythonIsNull negated).text :=
  (startsWithCode_operand h).append _

theorem startsWithCode_comparison (h : Text.StartsWithCode c.text) (op : Comparison)
    (negated : Bool) (right : Code) : Text.StartsWithCode (op.toPython negated c right).text :=
  (startsWithCode_operand h).append _ |>.append _ |>.append _ |>.append _

theorem startsWithCode_call {callee : String} (h : Text.StartsWithCode callee)
    (args : List String) : Text.StartsWithCode (callText callee args) :=
  h.append _ |>.append _ |>.append _

end Code

theorem Junction.startsWithCode_toPython (op : Junction) :
    ∀ cs : List Code, Text.StartsWithCode (op.toPython cs)
  | [] | [_] | _ :: _ :: _ => .append (.append (by decide) _) _

namespace Expr

/-- The text of an expression begins with code. -/
theorem startsWithCode_toPython : ∀ {e : Expr}, e.LeadsWithCode → ∀ {c : Code},
    e.toPython = .ok c → Text.StartsWithCode c.text
  | .literal v, _, c, h => by
      cases h
      exact v.startsWithCode_toPython
  | .null, _, c, h | .omit, _, c, h => by
      cases h
      decide
  | .list items inner, _, c, h | .dict entries valueType, _, c, h => by
      obtain ⟨cs, -, h⟩ := bind_eq_ok.1 h
      cases pure_eq_ok.1 h
      exact .append (.append (by decide) _) _
  | .cast ty value, _, c, h => by
      obtain ⟨t, -, h⟩ := bind_eq_ok.1 h
      obtain ⟨v, -, h⟩ := bind_eq_ok.1 h
      cases pure_eq_ok.1 h
      exact Code.startsWithCode_call (by decide) _
  | .item _ leading key, hlead, c, h => by
      obtain ⟨t, ht, h⟩ := bind_eq_ok.1 h
      obtain ⟨k, -, h⟩ := bind_eq_ok.1 h
      cases pure_eq_ok.1 h
      have ih := startsWithCode_toPython (e := leading) hlead ht
      exact (Code.startsWithCode_base ih).append _ |>.append _ |>.append _
  | .itemOr .position leading key fallback, hlead, c, h => by
      obtain ⟨t, ht, h⟩ := bind_eq_ok.1 h
      obtain ⟨k, -, h⟩ := bind_eq_ok.1 h
      obtain ⟨f, -, h⟩ := bind_eq_ok.1 h
      cases pure_eq_ok.1 h
      have ih := startsWithCode_toPython (e := leading) hlead ht
      exact (Code.startsWithCode_base ih).append _ |>.append _ |>.append _ |>.append _
        |>.append _ |>.append _ |>.append _ |>.append _
  | .itemOr .key leading key fallback, hlead, c, h => by
      obtain ⟨t, ht, h⟩ := bind_eq_ok.1 h
      obtain ⟨k, -, h⟩ := bind_eq_ok.1 h
      obtain ⟨f, -, h⟩ := bind_eq_ok.1 h
      cases pure_eq_ok.1 h
      have ih := startsWithCode_toPython (e := leading) hlead ht
      exact Code.startsWithCode_call ((Code.startsWithCode_base ih).append _) _
  | .var name ty, hlead, c, h => by
      cases h
      exact hlead
  | .field name ty, _, c, h => by
      cases h
      exact .append (by decide) _
  | .prop leading name ty, hlead, c, h => by
      obtain ⟨o, ho, h⟩ := bind_eq_ok.1 h
      cases pure_eq_ok.1 h
      have ih := startsWithCode_toPython (e := leading) hlead ho
      exact (Code.startsWithCode_base ih).append _ |>.append _
  | .call callee construct args named, hlead, c, h => by
      obtain ⟨cs, -, h⟩ := bind_eq_ok.1 h
      obtain ⟨ns, -, h⟩ := bind_eq_ok.1 h
      cases pure_eq_ok.1 h
      exact Code.startsWithCode_call hlead _
  | .apply leading construct args named, hlead, c, h => by
      obtain ⟨o, ho, h⟩ := bind_eq_ok.1 h
      obtain ⟨cs, -, h⟩ := bind_eq_ok.1 h
      obtain ⟨ns, -, h⟩ := bind_eq_ok.1 h
      cases pure_eq_ok.1 h
      have ih := startsWithCode_toPython (e := leading) hlead ho
      exact Code.startsWithCode_call (Code.startsWithCode_base ih) _
  | .text parts, _, c, h => by
      obtain ⟨ps, -, h⟩ := bind_eq_ok.1 h
      cases pure_eq_ok.1 h
      exact .append (.append (by decide) _) _
  | .only .python code, hlead, c, h => by
      cases h
      exact hlead
  | .only .typescript _, _, _, h | .only .php _, _, _, h | .junction _ [], _, _, h => nomatch h
  | .junction op (e :: es), _, c, h => by
      obtain ⟨cs, -, h⟩ := bind_eq_ok.1 h
      cases pure_eq_ok.1 h
      exact op.startsWithCode_toPython cs
  | .not leading, hlead, c, h => by
      cases leading with
      | not inner => exact startsWithCode_toPython (e := inner) hlead h
      | isNull negated value =>
          obtain ⟨v, hv, h⟩ := bind_eq_ok.1 h
          cases pure_eq_ok.1 h
          exact Code.startsWithCode_isNull (startsWithCode_toPython (e := value) hlead hv) _
      | compare op negated left right =>
          obtain ⟨l, hl, h⟩ := bind_eq_ok.1 h
          obtain ⟨r, -, h⟩ := bind_eq_ok.1 h
          cases pure_eq_ok.1 h
          exact Code.startsWithCode_comparison (startsWithCode_toPython (e := left) hlead hl) op _ r
      | _ =>
          rw [toPython_not rfl] at h
          obtain ⟨v, -, h⟩ := bind_eq_ok.1 h
          cases pure_eq_ok.1 h
          exact .append (by decide) _
  | .length value, _, c, h | .isType _ value, _, c, h => by
      obtain ⟨v, -, h⟩ := bind_eq_ok.1 h
      cases pure_eq_ok.1 h
      exact Code.startsWithCode_call (by decide) _
  | .supplied value, _, c, h | .await value, _, c, h => by
      obtain ⟨v, -, h⟩ := bind_eq_ok.1 h
      cases pure_eq_ok.1 h
      exact .append (by decide) _
  | .isNull negated leading, hlead, c, h => by
      obtain ⟨v, hv, h⟩ := bind_eq_ok.1 h
      cases pure_eq_ok.1 h
      exact Code.startsWithCode_isNull (startsWithCode_toPython (e := leading) hlead hv) negated
  | .compare op negated leading right, hlead, c, h => by
      obtain ⟨l, hl, h⟩ := bind_eq_ok.1 h
      obtain ⟨r, -, h⟩ := bind_eq_ok.1 h
      cases pure_eq_ok.1 h
      exact Code.startsWithCode_comparison (startsWithCode_toPython (e := leading) hlead hl) op
        negated r
  | .perTarget codes, hlead, c, h => by
      cases hcode : codes.python with
      | none =>
          rw [toPython, hcode] at h
          cases h
      | some code =>
          rw [toPython, hcode] at h
          cases h
          exact hlead _ hcode

theorem startsWithCode_pythonText {e : Expr} (hlead : e.LeadsWithCode) {text : String}
    (h : e.pythonText = .ok text) : Text.StartsWithCode text := by
  obtain ⟨c, hc, h⟩ := bind_eq_ok.1 h
  cases pure_eq_ok.1 h
  exact startsWithCode_toPython hlead hc

end Expr

end Polyglot
