import Polyglot.Ascending

/-!
# Literal values

Scalar constants, the order in which they are written, and sets of them.

* `Literal.lt_trans`, `Literal.lt_of_not_lt` : the order is transitive and total.
* `LiteralSet.mem_ofList` : a set holds exactly the values that it is made from.
-/

set_option autoImplicit false

namespace Polyglot

/-- A scalar constant. -/
inductive Literal where
  | bool (value : Bool)
  | int (value : Int)
  | str (value : String)
  deriving DecidableEq, Repr

namespace Literal

/-- `true`, then `false`, then integers ascending, then texts by code points. -/
def before : Literal → Literal → Bool
  | .bool a, .bool b => a && !b
  | .bool _, _ => true
  | .int a, .int b => decide (a < b)
  | .int _, .str _ => true
  | .str a, .str b => decide (a < b)
  | _, _ => false

instance : LT Literal := ⟨fun a b => a.before b = true⟩

instance : DecidableLT Literal := fun a b => inferInstanceAs (Decidable (a.before b = true))

theorem lt_iff {a b : Literal} : a < b ↔ a.before b = true := Iff.rfl

protected theorem lt_trans {a b c : Literal} (hab : a < b) (hbc : b < c) : a < c := by
  rw [lt_iff] at *
  cases a <;> cases b <;> cases c
  case int.int.int =>
    exact decide_eq_true (Int.lt_trans (of_decide_eq_true hab) (of_decide_eq_true hbc))
  case str.str.str =>
    exact decide_eq_true (String.lt_trans (of_decide_eq_true hab) (of_decide_eq_true hbc))
  all_goals simp_all [before]

protected theorem lt_irrefl (a : Literal) : ¬a < a := by
  rw [lt_iff]
  cases a with
  | bool b => cases b <;> decide
  | int n => exact fun h => Int.lt_irrefl n (of_decide_eq_true h)
  | str s => exact fun h => String.lt_irrefl s (of_decide_eq_true h)

/-- Of two different values one stands before the other. -/
protected theorem lt_of_not_lt {a b : Literal} (h : ¬a < b) (hne : a ≠ b) : b < a := by
  rw [lt_iff] at *
  cases a <;> cases b
  case str.str a b =>
    have hab : b ≤ a := fun hlt => h (decide_eq_true hlt)
    refine decide_eq_true (Decidable.byContradiction fun hba => hne ?_)
    rw [String.le_antisymm hba hab]
  all_goals simp_all [before]
  next a b => cases a <;> cases b <;> simp_all
  next a b => omega

end Literal

/-- A set of constants, kept in the order in which it is written. -/
structure LiteralSet where
  values : List Literal
  ordered : values.Pairwise (· < ·)
  deriving DecidableEq

namespace LiteralSet

/-- The set of the given values. -/
def ofList (values : List Literal) : LiteralSet :=
  ⟨ascending values, ascending_pairwise Literal.lt_trans Literal.lt_of_not_lt values⟩

theorem mem_ofList {v : Literal} {values : List Literal} :
    v ∈ (ofList values).values ↔ v ∈ values := mem_ascending

def size (s : LiteralSet) : Nat := s.values.length

def isEmpty (s : LiteralSet) : Bool := s.values.isEmpty

end LiteralSet

end Polyglot
