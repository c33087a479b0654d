import Polyglot.Expr.Render
import Polyglot.Proofs.Outcome

/-!
# Accesses with a fallback

An item of a list or a dict with a fallback is written with a guard of the language: a comparison of
the length or a method in Python, a comparison with `undefined` in TypeScript, and the operator `??`
in PHP. The guards have limits of their own: positions from the end, members that all objects have,
and stored values that are taken for missing ones.

* `Lookup.Term` : the code that is written around the operands.
* `Lookup.Term.eval` : its value by the rules of the language, from those of the operands.
* `Lookup.Place.deviation` : what an access gives where it does not give what is stored, or the
  fallback if nothing is.
* `Lookup.eval_itemOr` : **what an access with a fallback gives.**
-/

set_option autoImplicit false

namespace Polyglot.Lookup

open Outcome

/-! ## Values -/

/-- The values of code. `omitted` is the sentinel for an argument that was not supplied, which is
`undefined` in TypeScript, and a `member` is one that objects have without storing it. -/
inductive Value where
  | null
  | omitted
  | bool (b : Bool)
  | int (n : Int)
  | str (s : String)
  | list (items : List Value)
  | dict (entries : List (String × Value))
  | member (name : String)

/-- Why an evaluation breaks off. -/
inductive Fault where
  | index
  | key
  | type
  | raised (message : String)

/-- A value, unless the evaluation breaks off. -/
abbrev Result := Except Fault Value

namespace Value

def isNull : Value → Bool
  | .null => true
  | _ => false

def isOmitted : Value → Bool
  | .omitted => true
  | _ => false

end Value

/-- The item at a position that is counted from the beginning. -/
def item? (items : List Value) (i : Int) : Option Value := if 0 ≤ i then items[i.toNat]? else none

/-- A subscript. Python counts negative positions from the end and breaks off if there is nothing.
Otherwise nothing is `undefined` in TypeScript, where `members` are those that all objects have, and
null in PHP. -/
def subscript (t : Target) (members : String → Option Value) : Value → Value → Result
  | .list items, .int i =>
    match t with
    | .python => (item? items (if i < 0 then i + items.length else i)).elim (.error .index) .ok
    | .typescript => .ok ((item? items i).getD .omitted)
    | .php => .ok ((item? items i).getD .null)
  | .dict entries, .str key =>
    match t with
    | .python => (entries.lookup key).elim (.error .key) .ok
    | .typescript => .ok (((entries.lookup key).or (members key)).getD .omitted)
    | .php => .ok ((entries.lookup key).getD .null)
  | _, _ => .error .type

/-! ## The code around the operands -/

/-- An operand of an access. -/
inductive Slot where
  | target
  | key
  | fallback

/-- What belongs to each operand. -/
def Slot.pick {α : Type} (target key fallback : α) : Slot → α
  | .target => target
  | .key => key
  | .fallback => fallback

/-- The code that an access with a fallback is made of. Python asks whether a list `isLonger` than a
position and calls the method `get` of dicts, TypeScript compares with `undefined`, and `coalesce`
is the operator `??` of PHP. -/
inductive Term where
  | operand (s : Slot)
  | subscript (a k : Slot)
  | isLonger (a k : Slot)
  | get (a k f : Slot)
  | isDefined (value : Term)
  | conditional (test value other : Term)
  | coalesce (value : Term) (f : Slot)

namespace Term

/-- How the code is written. -/
def write (t : Target) (codes : Slot → Code) : Term → String
  | .operand s => (codes s).text
  | .subscript a k => (codes a).base ++ "[" ++ (codes k).text ++ "]"
  | .isLonger a k => "len(" ++ (codes a).text ++ ") > " ++ (codes k).operand
  | .get a k f => (codes a).base ++ ".get(" ++ (codes k).text ++ ", " ++ (codes f).text ++ ")"
  | .isDefined value => value.write t codes ++ " !== undefined"
  | .conditional test value other =>
    if t = .python then
      value.write t codes ++ " if " ++ test.write t codes ++ " else " ++ other.write t codes
    else test.write t codes ++ " ? " ++ value.write t codes ++ " : " ++ other.write t codes
  | .coalesce value f => value.write t codes ++ " ?? " ++ (codes f).operand

/-- The value of the code, from the values of its operands. Only one branch of a conditional
expression is evaluated, and the right side of `??` only if the left side is null; a method gets the
values of all its arguments. -/
def eval (t : Target) (members : String → Option Value) (values : Slot → Result) : Term → Result
  | .operand s => values s
  | .subscript a k => do
    let container ← values a
    let key ← values k
    Lookup.subscript t members container key
  | .isLonger a k => do
    let container ← values a
    let key ← values k
    match container, key with
    | .list items, .int i => return .bool (decide (i < items.length))
    | _, _ => throw .type
  | .get a k f => do
    let container ← values a
    let key ← values k
    let other ← values f
    match container, key with
    | .dict entries, .str name => return (entries.lookup name).getD other
    | _, _ => throw .type
  | .isDefined value => do
    let v ← value.eval t members values
    return .bool (!v.isOmitted)
  | .conditional test value other => do
    match ← test.eval t members values with
    | .bool true => value.eval t members values
    | .bool false => other.eval t members values
    | _ => throw .type
  | .coalesce value f => do
    let v ← value.eval t members values
    if v.isNull then values f else return v

end Term

/-- The code of an access with a fallback. -/
def term : Target → Selector → Term
  | .python, .position =>
    .conditional (.isLonger .target .key) (.subscript .target .key) (.operand .fallback)
  | .python, .key => .get .target .key .fallback
  | .typescript, _ =>
    .conditional (.isDefined (.subscript .target .key)) (.subscript .target .key)
      (.operand .fallback)
  | .php, _ => .coalesce (.subscript .target .key) .fallback

/-- An access with a fallback is written as its code around the code of its operands. -/
theorem exists_codes {t : Target} {selector : Selector} {target key fallback : Expr} {r : Code}
    (h : (Expr.itemOr selector target key fallback).render t = .ok r) :
    ∃ a k f, target.render t = .ok a ∧ key.render t = .ok k ∧ fallback.render t = .ok f ∧
      r.text = (term t selector).write t (Slot.pick a k f) := by
  cases t with
  | python =>
      cases selector with
      | position | key =>
          obtain ⟨a, ha, h⟩ := bind_eq_ok.1 h
          obtain ⟨k, hk, h⟩ := bind_eq_ok.1 h
          obtain ⟨f, hf, h⟩ := bind_eq_ok.1 h
          cases pure_eq_ok.1 h
          refine ⟨a, k, f, ha, hk, hf, String.toList_inj.1 ?_⟩
          simp [term, Term.write, Slot.pick, Code.callText]
  | typescript | php =>
      obtain ⟨a, ha, h⟩ := bind_eq_ok.1 h
      obtain ⟨k, hk, h⟩ := bind_eq_ok.1 h
      obtain ⟨f, hf, h⟩ := bind_eq_ok.1 h
      cases pure_eq_ok.1 h
      refine ⟨a, k, f, ha, hk, hf, String.toList_inj.1 ?_⟩
      simp [term, Term.write, Slot.pick]

/-! ## What is looked up -/

/-- A place in a list or a dict. -/
inductive Place where
  | position (items : List Value) (i : Int)
  | entry (entries : List (String × Value)) (name : String)

namespace Place

def selector : Place → Selector
  | .position _ _ => .position
  | .entry _ _ => .key

/-- What is stored there. Positions count from the beginning. -/
def stored? : Place → Option Value
  | .position items i => item? items i
  | .entry entries name => entries.lookup name

/-- The values of the operands of an access. -/
def operands (p : Place) (fallback : Result) : Slot → Result :=
  match p with
  | .position items i => Slot.pick (.ok (.list items)) (.ok (.int i)) fallback
  | .entry entries name => Slot.pick (.ok (.dict entries)) (.ok (.str name)) fallback

/-- What is stored, or the fallback if nothing is. -/
def expected (p : Place) (fallback : Result) : Result := p.stored?.elim fallback .ok

/-- What an access gives that is not what is expected. In Python, a position in front of the list is
one from its end; and the fallback of a dict is evaluated even if it is not needed. In TypeScript, a
stored `undefined` is taken for nothing, and members that all objects have are taken for stored
values. In PHP, a stored null is taken for nothing. -/
def deviation (t : Target) (members : String → Option Value) (fallback : Result) :
    Place → Option Result
  | .position items i =>
    match t with
    | .python =>
      if i < 0 then some ((item? items (i + items.length)).elim (.error .index) .ok) else none
    | .typescript => if (item? items i).any Value.isOmitted then some fallback else none
    | .php => if (item? items i).any Value.isNull then some fallback else none
  | .entry entries name =>
    match t with
    | .python =>
      match entries.lookup name, fallback with
      | some _, .error fault => some (.error fault)
      | _, _ => none
    | .typescript =>
      match entries.lookup name with
      | some v => if v.isOmitted then some fallback else none
      | none => ((members name).filter fun v => !v.isOmitted).map .ok
    | .php => if (entries.lookup name).any Value.isNull then some fallback else none

end Place

/-! ## Evaluation -/

variable {members : String → Option Value} {container key v : Value} {fallback : Result}

/-- In TypeScript, the subscript is given unless it is `undefined`. -/
theorem eval_typeScript (selector : Selector)
    (h : subscript .typescript members container key = .ok v) :
    (term .typescript selector).eval .typescript members
        (Slot.pick (.ok container) (.ok key) fallback) =
      if v.isOmitted then fallback else .ok v := by
  simp only [term, Term.eval, Slot.pick, ok_bind, h]
  cases v.isOmitted <;> rfl

/-- In PHP, the subscript is given unless it is null. -/
theorem eval_php (selector : Selector) (h : subscript .php members container key = .ok v) :
    (term .php selector).eval .php members (Slot.pick (.ok container) (.ok key) fallback) =
      if v.isNull then fallback else .ok v := by
  simp only [term, Term.eval, Slot.pick, ok_bind, h]
  rfl

/-- In Python, the subscript is evaluated if the list is longer than the position. -/
theorem eval_python_position (items : List Value) (i : Int) :
    (term .python .position).eval .python members
        (Slot.pick (.ok (.list items)) (.ok (.int i)) fallback) =
      if i < items.length then subscript .python members (.list items) (.int i) else fallback := by
  simp only [term, Term.eval, Slot.pick, ok_bind]
  by_cases h : i < items.length
  · simp [h, pure, Except.pure]
  · simp [h, pure, Except.pure]

theorem item?_eq_none_iff {items : List Value} {i : Int} :
    item? items i = none ↔ i < 0 ∨ items.length ≤ i := by
  unfold item?
  split
  · rw [List.getElem?_eq_none_iff]
    omega
  · simp
    omega

namespace Place

theorem eval_position (t : Target) (items : List Value) (i : Int) :
    (term t .position).eval t members ((position items i).operands fallback) =
      ((position items i).deviation t members fallback).getD
        ((position items i).expected fallback) := by
  cases t with
  | python =>
      rw [operands, eval_python_position, deviation, expected, stored?, subscript]
      by_cases hneg : i < 0
      · have hlonger : i < items.length := by omega
        simp [hneg, hlonger]
      · by_cases hlonger : i < items.length
        · obtain ⟨v, hv⟩ : ∃ v, item? items i = some v := by
            rw [← Option.ne_none_iff_exists', Ne, item?_eq_none_iff]
            omega
          simp [hneg, hlonger, hv]
        · have hnone : item? items i = none := item?_eq_none_iff.2 (by omega)
          simp [hneg, hlonger, hnone]
  | typescript =>
      rw [operands, eval_typeScript .position rfl, deviation, expected, stored?]
      cases item? items i with
      | none => rfl
      | some v => cases h : v.isOmitted <;> simp [h]
  | php =>
      rw [operands, eval_php .position rfl, deviation, expected, stored?]
      cases item? items i with
      | none => rfl
      | some v => cases h : v.isNull <;> simp [h]

theorem eval_entry (t : Target) (entries : List (String × Value)) (name : String) :
    (term t .key).eval t members ((entry entries name).operands fallback) =
      ((entry entries name).deviation t members fallback).getD
        ((entry entries name).expected fallback) := by
  cases t with
  | python =>
      simp only [operands, deviation, expected, stored?, term, Term.eval, Slot.pick, ok_bind]
      cases entries.lookup name with
      | none => cases fallback <;> rfl
      | some v => cases fallback <;> rfl
  | typescript =>
      rw [operands, eval_typeScript .key rfl, deviation, expected, stored?]
      cases entries.lookup name with
      | none =>
          cases members name with
          | none => rfl
          | some v => cases h : v.isOmitted <;> simp [h, Option.filter]
      | some v => cases h : v.isOmitted <;> simp [h]
  | php =>
      rw [operands, eval_php .key rfl, deviation, expected, stored?]
      cases entries.lookup name with
      | none => rfl
      | some v => cases h : v.isNull <;> simp [h]

theorem eval_term (p : Place) (t : Target) :
    (term t p.selector).eval t members (p.operands fallback) =
      (p.deviation t members fallback).getD (p.expected fallback) := by
  cases p with
  | position items i => exact eval_position t items i
  | entry entries name => exact eval_entry t entries name

end Place

/-- **What an access with a fallback gives**, by the rules of the language that it is written in.
Whatever its operands are and whatever values they have: if the first one is a list or a dict and
the second one a place in it, the code gives what is stored there, or what the fallback gives if
nothing is stored, but for the deviations of the language. -/
theorem eval_itemOr {t : Target} {p : Place} {target key fallback : Expr} {r : Code}
    (h : (Expr.itemOr p.selector target key fallback).render t = .ok r)
    (members : String → Option Value) (value : Result) :
    ∃ a k f, target.render t = .ok a ∧ key.render t = .ok k ∧ fallback.render t = .ok f ∧
      r.text = (term t p.selector).write t (Slot.pick a k f) ∧
      (term t p.selector).eval t members (p.operands value) =
        (p.deviation t members value).getD (p.expected value) := by
  obtain ⟨a, k, f, ha, hk, hf, htext⟩ := exists_codes h
  exact ⟨a, k, f, ha, hk, hf, htext, p.eval_term t⟩

/-- A position in front of the list is none of TypeScript's arrays. -/
theorem eval_itemOr_typeScript :
    let p : Place := .position [.int 7] (-1)
    let access : Expr :=
      .itemOr .position (.var "t" none) (.literal (.int (-1))) (.literal (.int 0))
    access.render .typescript = .ok ⟨"t[-1] !== undefined ? t[-1] : 0", .sum⟩ ∧
      (term .typescript .position).eval .typescript (fun _ => none)
        (p.operands (.ok (.int 0))) = .ok (.int 0) := by
  intro p access
  have h : access.render .typescript = .ok ⟨"t[-1] !== undefined ? t[-1] : 0", .sum⟩ := rfl
  obtain ⟨_, _, _, -, -, -, -, heval⟩ :=
    eval_itemOr (p := p) h (fun _ => none) (.ok (.int 0))
  exact ⟨h, heval⟩

/-- In Python, a position in front of the list is looked up from its end, and breaks off if the list
is too short for that. In PHP, an entry that is null is given up for the fallback. In TypeScript,
a name that all objects have is not missing. -/
theorem eval_itemOr_deviates :
    let zero : Result := .ok (.int 0)
    let position : Expr :=
      .itemOr .position (.var "t" none) (.literal (.int (-1))) (.literal (.int 0))
    let entry (name : String) : Expr :=
      .itemOr .key (.var "d" none) (.literal (.str name)) (.literal (.int 0))
    let noMembers : String → Option Value := fun _ => none
    let members : String → Option Value := fun name =>
      if name = "toString" then some (.member name) else none
    position.render .python = .ok ⟨"t[-1] if len(t) > -1 else 0", .sum⟩ ∧
      (term .python .position).eval .python noMembers ((Place.position [] (-1)).operands zero) =
        .error .index ∧
      (Place.position [] (-1)).expected zero = zero ∧
      (term .python .position).eval .python noMembers
        ((Place.position [.int 7] (-1)).operands zero) = .ok (.int 7) ∧
      (Place.position [.int 7] (-1)).expected zero = zero ∧
      (entry "k").render .php = .ok ⟨"$d['k'] ?? 0", .product⟩ ∧
      (term .php .key).eval .php noMembers ((Place.entry [("k", .null)] "k").operands zero) = zero ∧
      (Place.entry [("k", .null)] "k").expected zero = .ok .null ∧
      (entry "toString").render .typescript =
        .ok ⟨"d['toString'] !== undefined ? d['toString'] : 0", .sum⟩ ∧
      (term .typescript .key).eval .typescript members
        ((Place.entry [] "toString").operands zero) = .ok (.member "toString") ∧
      (Place.entry [] "toString").expected zero = zero :=
  ⟨rfl, rfl, rfl, rfl, rfl, rfl, rfl, rfl, rfl, rfl, rfl⟩

end Polyglot.Lookup
