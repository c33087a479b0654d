import Polyglot.Proofs.Assignment.Place

/-!
# Bases of accesses

What stands in front of a selector, a subscript or an argument list has to be a primary, so that the
access is one of its whole value. Code begins with the code of its first operand, as far as that is
not set in parentheses, and so down to an expression that begins with a character of its own.
Integers are tagged as atoms: they are the only ones that do not begin as a primary does.

* `Text.IsPrimary` : texts that begin with a name, a variable, a quote or a bracket.
* `Expr.foremost` : the expression that code begins with.
* `Expr.exists_foremost` : the base of an expression begins with the base of the foremost one.
* `Access.isPrimary_base_iff` : **which bases are primaries.**
-/

set_option autoImplicit false

namespace Polyglot

open Outcome Brackets

variable {t : Target}

/-! ## How texts begin -/

/-- Whether a character begins a primary of the language: a name, a variable, a string literal or
something in brackets. A sign or a digit does not. -/
def Target.beginsPrimary (t : Target) (c : Char) : Bool :=
  isLetter c || ['(', '[', '\x7b', '\''].contains c ||
    match t with
    | .python => c == '"'
    | .typescript => c == '"' || c == '\x60'
    | .php => c == '$'

theorem Target.beginsPrimary_of_isDigit {c : Char} (h : c.isDigit = true) :
    t.beginsPrimary c = false := by
  have hletter : isLetter c = false := by
    rw [← Bool.not_eq_true]
    intro hletter
    rw [Token.not_isDigit_of_isLetter hletter] at h
    cases h
  have hother : ∀ cs : List Char, (cs.all fun d => !d.isDigit) = true → c ∉ cs := by
    intro cs hcs hmem
    have hno := List.all_eq_true.1 hcs c hmem
    simp [h] at hno
  have hbracket := hother ['(', '[', '\x7b', '\''] (by decide)
  have hmark := hother ['"', '\x60', '$'] (by decide)
  simp only [List.mem_cons, List.not_mem_nil, or_false, not_or] at hbracket hmark
  cases t <;> simp [beginsPrimary, *]

namespace Text

/-- Whether a text begins as a primary does. -/
def IsPrimary (t : Target) (s : String) : Prop :=
  ∃ c ∈ s.toList.head?, t.beginsPrimary c = true

instance (t : Target) (s : String) : Decidable (IsPrimary t s) :=
  decidable_of_iff (s.toList.head?.any t.beginsPrimary = true)
    (by simp [IsPrimary, Option.any_eq_true])

namespace IsPrimary

variable {a : String}

theorem append (h : IsPrimary t a) (b : String) : IsPrimary t (a ++ b) := by
  obtain ⟨c, ha, hc⟩ := h
  refine ⟨c, ?_, hc⟩
  rw [String.toList_append, List.head?_append_of_ne_nil]
  · exact ha
  · intro hnil
    simp [hnil] at ha

theorem ne_empty (h : IsPrimary t a) : a ≠ "" := by
  rintro rfl
  obtain ⟨c, hc, -⟩ := h
  cases hc

/-- A text with something around it that begins as a primary does. -/
theorem around (h : IsPrimary t a) (b c : String) : IsPrimary t (a ++ b ++ c) :=
  (h.append b).append c

/-- The call of what begins as a primary does. -/
theorem call (h : IsPrimary t a) (args : String) : IsPrimary t (a ++ "(" ++ args ++ ")") :=
  (h.append "(").around args ")"

theorem of_isIdentifier (h : isIdentifier a = true) : IsPrimary t a := by
  obtain ⟨c, cs, ha, hc⟩ := exists_letter_of_isIdentifier h
  exact ⟨c, by simp [ha], by simp [Target.beginsPrimary, hc]⟩

theorem quoted (ht : t ≠ .php) (s : String) : IsPrimary t (Quoted.encode s) := by
  refine ⟨Quoted.mark s.toList, by simp [Quoted.encode, Quoted.encodeChars], ?_⟩
  rcases Quoted.mark_eq s.toList with h | h
  · rw [h]
    cases t with
    | php => exact absurd rfl ht
    | python | typescript => rfl
  · rw [h]
    rfl

theorem singleQuoted (s : String) : IsPrimary t (SingleQuoted.encode s) :=
  ⟨'\'', by simp [SingleQuoted.encode, SingleQuoted.encodeChars], rfl⟩

/-- A text in parentheses, and any other that begins as a primary does, can be a base. -/
theorem base {c : Code} (h : c.tag.rank ≤ Precedence.access.rank → IsPrimary t c.text) :
    IsPrimary t c.base := by
  rw [Code.base]
  split
  · exact IsPrimary.around (a := "(") ⟨'(', rfl, rfl⟩ c.text ")"
  · rename_i hrank
    exact h (Nat.le_of_not_lt hrank)

theorem base_of_text {c : Code} (h : IsPrimary t c.text) : IsPrimary t c.base := base fun _ => h

/-- Operators are set in parentheses. -/
theorem base_of_loose {c : Code} (h : c.tag = .product ∨ c.tag = .sum) : IsPrimary t c.base := by
  refine base fun hrank => ?_
  rcases h with h | h <;> exact absurd (h ▸ hrank) (by decide)

end IsPrimary

/-- A number begins with its sign or with a digit, whatever stands behind it. -/
theorem not_isPrimary_int (n : Int) (rest : String) : ¬IsPrimary t (toString n ++ rest) := by
  rintro ⟨c, hfirst, hc⟩
  obtain ⟨d, ds, -, hn⟩ := Token.exists_digits n
  have hmem : c ∈ (toString n).toList := by
    change _ ∈ ((n.repr) ++ rest).toList.head? at hfirst
    change c ∈ n.repr.toList
    rw [String.toList_append] at hfirst
    rcases hn with hn | hn
    · rw [hn] at hfirst ⊢
      cases hfirst
      exact List.mem_cons_self ..
    · rw [hn] at hfirst ⊢
      cases hfirst
      exact List.mem_cons_self ..
  rcases isDigit_of_mem_int hmem with hdigit | rfl
  · rw [Target.beginsPrimary_of_isDigit hdigit] at hc
    cases hc
  · cases t <;> exact absurd hc (by decide)

end Text

/-! ## The operand that code begins with -/

theorem Code.typeScriptCall_function (callee : String) (args : List Code) :
    typeScriptCall callee false args =
      callee ++ ("(" ++ ", ".intercalate (args.map text) ++ ")") := by
  simp [typeScriptCall, String.append_assoc]

namespace Expr

/-- The operand that the code of an expression begins with, if there is one. -/
def base? (t : Target) : Expr → Option Expr
  | .cast _ value => if t = .php then some value else none
  | .item _ target _ => some target
  | .itemOr .key target _ _ => if t = .python then some target else none
  | .prop owner _ _ => some owner
  | .apply callee construct _ _ =>
    if construct = true ∧ t ≠ .python then none else some callee
  | .not (.not operand) => some operand
  | .length value => if t = .typescript then some value else none
  | _ => none

theorem sizeOf_lt_of_base? {e base : Expr} (h : e.base? t = some base) :
    sizeOf base < sizeOf e := by
  unfold base? at h
  split at h <;> simp at h <;> grind

/-- The expression that the code of an expression begins with. -/
def foremost (t : Target) (e : Expr) : Expr :=
  match _h : e.base? t with
  | some base => base.foremost t
  | none => e
termination_by sizeOf e
decreasing_by exact sizeOf_lt_of_base? _h

theorem foremost_of_some {e base : Expr} (h : e.base? t = some base) :
    e.foremost t = base.foremost t := by
  rw [foremost]
  split
  · rename_i h'
    rw [h] at h'
    cases h'
    rfl
  · rename_i h'
    rw [h] at h'
    cases h'

theorem foremost_of_none {e : Expr} (h : e.base? t = none) : e.foremost t = e := by
  rw [foremost]
  split
  · rename_i h'
    rw [h] at h'
    cases h'
  · rfl

/-- The code of an expression is the code of its first operand, or has that as its base. -/
theorem exists_of_base? {e base : Expr} (h : e.base? t = some base) {c : Code}
    (hc : e.render t = .ok c) :
    ∃ b rest, base.render t = .ok b ∧ c.base = b.base ++ rest := by
  -- The code of an access is left alone in front of the next one.
  have haccess : ∀ {b : Code} {text rest : String}, base.render t = .ok b →
      text = b.base ++ rest → ∃ b rest, base.render t = .ok b ∧
        Code.base ⟨text, .access⟩ = b.base ++ rest :=
    fun {b _ rest} hb htext => ⟨b, rest, hb, htext⟩
  have hsame : base.render t = .ok c →
      ∃ b rest, base.render t = .ok b ∧ c.base = b.base ++ rest :=
    fun hb => ⟨c, "", hb, String.append_empty.symm⟩
  cases e with
  | cast ty value =>
      cases t with
      | python | typescript => cases h
      | php =>
          cases h
          exact hsame hc
  | item selector target key =>
      cases h
      cases t with
      | python | typescript | php =>
          obtain ⟨b, hb, hc⟩ := bind_eq_ok.1 hc
          obtain ⟨k, _, hc⟩ := bind_eq_ok.1 hc
          cases pure_eq_ok.1 hc
          exact haccess hb (by rw [String.append_assoc, String.append_assoc])
  | itemOr selector target key fallback =>
      cases selector with
      | position => cases h
      | key =>
          cases t with
          | typescript | php => cases h
          | python =>
              cases h
              obtain ⟨b, hb, hc⟩ := bind_eq_ok.1 hc
              obtain ⟨k, _, hc⟩ := bind_eq_ok.1 hc
              obtain ⟨f, _, hc⟩ := bind_eq_ok.1 hc
              cases pure_eq_ok.1 hc
              exact haccess hb (by rw [Code.callText]; simp only [String.append_assoc]; rfl)
  | prop owner name ty =>
      cases h
      cases t with
      | python | typescript | php =>
          obtain ⟨b, hb, hc⟩ := bind_eq_ok.1 hc
          cases pure_eq_ok.1 hc
          exact haccess hb (by rw [String.append_assoc])
  | apply callee construct args named =>
      obtain ⟨hcall, h⟩ := Option.ite_none_left_eq_some.1 h
      cases h
      cases t with
      | python =>
          obtain ⟨b, hb, hc⟩ := bind_eq_ok.1 hc
          obtain ⟨cs, _, hc⟩ := bind_eq_ok.1 hc
          obtain ⟨ns, _, hc⟩ := bind_eq_ok.1 hc
          cases pure_eq_ok.1 hc
          exact haccess hb (by rw [Code.callText, String.append_assoc, String.append_assoc])
      | typescript =>
          obtain rfl : construct = false := by simpa using hcall
          cases named with
          | cons _ _ => cases hc
          | nil =>
              obtain ⟨b, hb, hc⟩ := bind_eq_ok.1 hc
              obtain ⟨cs, _, hc⟩ := bind_eq_ok.1 hc
              cases pure_eq_ok.1 hc
              exact haccess hb (Code.typeScriptCall_function b.base cs)
      | php =>
          obtain rfl : construct = false := by simpa using hcall
          cases named with
          | cons _ _ => cases hc
          | nil =>
              obtain ⟨cs, _, hc⟩ := bind_eq_ok.1 hc
              obtain ⟨b, hb, hc⟩ := bind_eq_ok.1 hc
              cases pure_eq_ok.1 hc
              exact haccess hb (by rw [String.append_assoc, String.append_assoc])
  | not operand =>
      cases operand with
      | not inner =>
          cases h
          cases t with
          | python | typescript | php => exact hsame hc
      | _ => cases h
  | length value =>
      cases t with
      | python | php => cases h
      | typescript =>
          cases h
          obtain ⟨b, hb, hc⟩ := bind_eq_ok.1 hc
          cases pure_eq_ok.1 hc
          exact haccess hb rfl
  | _ => cases h

/-- The expression that code begins with is written there, with nothing in front of it. -/
theorem exists_foremost (e : Expr) : ∀ {c : Code}, e.render t = .ok c →
    ∃ f rest, (e.foremost t).render t = .ok f ∧ c.base = f.base ++ rest := by
  fun_induction foremost t e with
  | case1 e base h ih =>
      intro c hc
      obtain ⟨b, inner, hb, hbase⟩ := exists_of_base? h hc
      obtain ⟨f, rest, hf, hrest⟩ := ih hb
      exact ⟨f, rest ++ inner, hf, by rw [hbase, hrest, String.append_assoc]⟩
  | case2 e =>
      exact fun {c} hc => ⟨c, "", hc, String.append_empty.symm⟩

theorem base?_foremost (e : Expr) : (e.foremost t).base? t = none := by
  fun_induction foremost t e with
  | case1 e base h ih => exact ih
  | case2 e h => exact h

/-! ## Expressions that code begins with -/

/-- Whether the expression is code of the caller. -/
def isHatch : Expr → Bool
  | .only _ _ | .perTarget _ => true
  | _ => false

/-- The name of the caller that the code of an expression begins with, if it begins with one. -/
def openingName? (t : Target) : Expr → Option String
  | .var name _ => if t = .php then none else some name
  | .call callee construct _ _ => if construct = true ∧ t ≠ .python then none else some callee
  | _ => none

/-- Whether the code of the expression is one operation, which is parenthesized as a base. The
sentinel counts as one in Python. -/
def isOperation (t : Target) : Expr → Bool
  | .itemOr .position _ _ _ | .isNull _ _ | .compare _ _ _ _ | .supplied _ | .await _ => true
  | .omit => t == .python
  | .itemOr .key _ _ _ | .junction _ _ => t != .python
  | .call _ construct _ _ | .apply _ construct _ _ => construct && t == .php
  | .text (_ :: _) => t == .php
  | .not (.not _) => false
  | .not _ => true
  | .isType test _ => t == .typescript && test != .list
  | _ => false

/-- The tag of an operation is looser than that of an access. -/
theorem tag_of_isOperation {e : Expr} (h : e.isOperation t = true) :
    Ensures (fun c => c.tag = .product ∨ c.tag = .sum) (e.render t) := by
  cases e with
  | «omit» =>
      cases t with
      | python => exact .ok (.inl rfl)
      | typescript | php => cases h
  | itemOr selector target key fallback =>
      cases t with
      | python =>
          cases selector with
          | position => exact .bind fun _ _ => .bind fun _ _ => .bind fun _ _ => .ok (.inr rfl)
          | key => cases h
      | typescript => exact .bind fun _ _ => .bind fun _ _ => .bind fun _ _ => .ok (.inr rfl)
      | php => exact .bind fun _ _ => .bind fun _ _ => .bind fun _ _ => .ok (.inl rfl)
  | call callee construct args named =>
      obtain ⟨rfl, ht⟩ := Bool.and_eq_true_iff.1 h
      cases eq_of_beq ht
      cases named with
      | nil => exact .bind fun _ _ => .ok (.inl rfl)
      | cons _ _ => exact .error _
  | apply callee construct args named =>
      obtain ⟨rfl, ht⟩ := Bool.and_eq_true_iff.1 h
      cases eq_of_beq ht
      cases named with
      | nil => exact .bind fun _ _ => .bind fun _ _ => .ok (.inl rfl)
      | cons _ _ => exact .error _
  | text parts =>
      cases parts with
      | nil => cases h
      | cons part parts =>
          cases eq_of_beq h
          exact .bind fun _ _ => .ok (.inl rfl)
  | junction op operands =>
      cases operands with
      | nil => cases t <;> exact .error _
      | cons e es =>
          cases t with
          | python => cases h
          | typescript | php => exact .bind fun _ _ => .ok (.inl rfl)
  | not operand =>
      cases operand with
      | not inner => cases h
      | isNull negated value =>
          cases t with
          | python | typescript => exact .bind fun _ _ => .ok (.inr rfl)
          | php => exact .bind fun _ _ => .ok (.inl rfl)
      | compare op negated left right =>
          cases t with
          | python | typescript | php => exact .bind fun _ _ => .bind fun _ _ => .ok (.inl rfl)
      | _ =>
          cases t with
          | python =>
              rw [render, toPython_not rfl]
              exact .bind fun _ _ => .ok (.inl rfl)
          | typescript =>
              rw [render, toTypeScript_not rfl]
              exact .bind fun _ _ => .ok (.inl rfl)
          | php =>
              rw [render, toPhp_not rfl]
              exact .bind fun _ _ => .ok (.inl rfl)
  | isNull negated value =>
      cases t with
      | python | typescript => exact .bind fun _ _ => .ok (.inr rfl)
      | php => exact .bind fun _ _ => .ok (.inl rfl)
  | compare op negated left right =>
      cases t with
      | python | typescript | php => exact .bind fun _ _ => .bind fun _ _ => .ok (.inl rfl)
  | isType test value =>
      obtain ⟨ht, hne⟩ := Bool.and_eq_true_iff.1 h
      cases eq_of_beq ht
      cases test with
      | str | int | bool => exact .bind fun _ _ => .ok (.inl rfl)
      | list => cases hne
  | supplied value | await value =>
      cases t with
      | python | typescript => exact .bind fun _ _ => .ok (.inl rfl)
      | php => exact .error _
  | _ => cases h

open Text

/-- Code that does not begin with an operand begins as a primary does, unless it is an integer. -/
theorem isPrimary_base {e : Expr} (hbase : e.base? t = none) (hhatch : e.isHatch = false)
    (hname : ∀ name ∈ e.openingName? t, isIdentifier name = true)
    (hint : ∀ n, e ≠ .literal (.int n)) : Ensures (fun c => IsPrimary t c.base) (e.render t) := by
  by_cases hoperation : e.isOperation t = true
  · exact fun c hc => .base_of_loose (tag_of_isOperation hoperation c hc)
  cases e with
  | literal value =>
      cases value with
      | int n => exact absurd rfl (hint n)
      | bool b =>
          cases t with
          | python | typescript | php => cases b <;> exact .ok (.base_of_text (by decide))
      | str s =>
          cases t with
          | python | typescript => exact .ok (.base_of_text (.quoted (by decide) s))
          | php => exact .ok (.base_of_text (.singleQuoted s))
  | null =>
      cases t with
      | python | typescript | php => exact .ok (.base_of_text (by decide))
  | «omit» =>
      cases t with
      | python => exact absurd rfl hoperation
      | typescript => exact .ok (.base_of_text (by decide))
      | php => exact .error _
  | list items ty =>
      cases t with
      | python | typescript | php =>
          exact .bind fun _ _ => .ok (.base_of_text (.around (by decide) _ _))
  | dict entries ty =>
      cases t with
      | python | typescript | php =>
          exact .bind fun _ _ => .ok (.base_of_text (.around (by decide) _ _))
  | cast ty value =>
      cases t with
      | python =>
          exact .bind fun _ _ => .bind fun _ _ => .ok (.base_of_text (.call (by decide) _))
      | typescript =>
          exact .bind fun _ _ => .bind fun _ _ =>
            .ok (.base_of_text ((IsPrimary.around (by decide) _ _).around _ _))
      | php => cases hbase
  | itemOr selector target key fallback =>
      cases selector with
      | position => exact absurd rfl hoperation
      | key =>
          cases t with
          | python => cases hbase
          | typescript | php => exact absurd rfl hoperation
  | var name ty =>
      cases t with
      | python | typescript => exact .ok (.base_of_text (.of_isIdentifier (hname name rfl)))
      | php => exact .ok (.base_of_text (.append (by decide) name))
  | field name ty =>
      cases t with
      | python | typescript | php => exact .ok (.base_of_text (.append (by decide) name))
  | call callee construct args named =>
      have hcallee (h : ¬(construct = true ∧ t ≠ .python)) : IsPrimary t callee :=
        .of_isIdentifier (hname callee (if_neg h))
      cases t with
      | python =>
          exact .bind fun _ _ => .bind fun _ _ => .ok (.base_of_text ((hcallee (by simp)).call _))
      | typescript =>
          cases named with
          | cons _ _ => exact .error _
          | nil =>
              refine .bind fun cs _ => .ok (.base_of_text ?_)
              cases construct with
              | false =>
                  rw [Code.typeScriptCall_function]
                  exact (hcallee (by simp)).append _
              | true => exact .call (.append (by decide) _) _
      | php =>
          cases named with
          | cons _ _ => exact .error _
          | nil =>
              cases construct with
              | true => exact absurd rfl hoperation
              | false => exact .bind fun cs _ => .ok (.base_of_text ((hcallee (by simp)).call _))
  | apply callee construct args named =>
      obtain ⟨rfl, ht⟩ : construct = true ∧ t ≠ .python := by
        by_contra h
        rw [base?, if_neg h] at hbase
        cases hbase
      cases t with
      | python => exact absurd rfl ht
      | php => exact absurd rfl hoperation
      | typescript =>
          cases named with
          | cons _ _ => exact .error _
          | nil =>
              refine .bind fun _ _ => .bind fun _ _ => .ok (.base_of_text ?_)
              exact .call (.append (by decide) _) _
  | text parts =>
      cases t with
      | python | typescript =>
          exact .bind fun _ _ => .ok (.base_of_text (.around (by decide) _ _))
      | php =>
          cases parts with
          | nil => exact .ok (.base_of_text (by decide))
          | cons _ _ => exact absurd rfl hoperation
  | junction op operands =>
      cases t with
      | python =>
          cases operands with
          | nil => exact .error _
          | cons e es =>
              refine .bind fun cs _ => .ok (.base_of_text ?_)
              rw [Junction.toPython.eq_def]
              split
              · exact .around (by decide) _ _
              · exact .around (by decide) _ _
      | typescript | php => exact absurd rfl hoperation
  | not operand =>
      cases operand with
      | not inner => cases hbase
      | _ => exact absurd rfl hoperation
  | length value =>
      cases t with
      | python => exact .bind fun _ _ => .ok (.base_of_text (.call (by decide) _))
      | typescript => cases hbase
      | php => exact .bind fun _ _ => .ok (.base_of_text (.around (by decide) _ _))
  | isType test value =>
      cases t with
      | python => exact .bind fun _ _ => .ok (.base_of_text (.call (by decide) _))
      | typescript =>
          cases test with
          | str | int | bool => exact absurd rfl hoperation
          | list => exact .bind fun _ _ => .ok (.base_of_text (.around (by decide) _ _))
      | php =>
          have hfunction : IsPrimary .php test.phpFunction := by cases test <;> decide
          exact .bind fun _ _ => .ok (.base_of_text (hfunction.call _))
  | only | perTarget => cases hhatch
  | item | prop => cases hbase
  | isNull | compare | supplied | await => exact absurd rfl hoperation

/-- A base that begins with an integer begins with its sign or its digits. -/
theorem base_of_int {e : Expr} {n : Int} (hn : e.foremost t = .literal (.int n)) {c : Code}
    (hc : e.render t = .ok c) : ∃ rest, c.base = toString n ++ rest := by
  obtain ⟨f, rest, hf, hbase⟩ := exists_foremost e hc
  refine ⟨rest, ?_⟩
  rw [hn] at hf
  cases t with
  | python | typescript | php =>
      cases hf
      exact hbase

/-- A base begins as a primary does, unless it begins with an integer. -/
theorem isPrimary_iff_foremost {e : Expr} (hhatch : (e.foremost t).isHatch = false)
    (hname : ∀ name ∈ (e.foremost t).openingName? t, isIdentifier name = true) {c : Code}
    (hc : e.render t = .ok c) :
    IsPrimary t c.base ↔ ∀ n, e.foremost t ≠ .literal (.int n) := by
  refine ⟨fun hprimary n hn => ?_, fun hint => ?_⟩
  · obtain ⟨rest, hbase⟩ := base_of_int hn hc
    rw [hbase] at hprimary
    exact not_isPrimary_int n rest hprimary
  · obtain ⟨f, rest, hf, hbase⟩ := exists_foremost e hc
    rw [hbase]
    exact (isPrimary_base (base?_foremost e) hhatch hname hint f hf).append rest

end Expr

/-! ## Accesses -/

/-- What an expression can be the base of. -/
inductive Access where
  | prop (name : String) (ty : Ty)
  | item (selector : Selector) (key : Expr)
  | itemOr (selector : Selector) (key fallback : Expr)
  | method (name : String) (args : List Expr)
  | length

namespace Access

/-- The access with its base. -/
def of : Access → Expr → Expr
  | .prop name ty, e => .prop e name ty
  | .item selector key, e => .item selector e key
  | .itemOr selector key fallback, e => .itemOr selector e key fallback
  | .method name args, e => e.callMethod name args
  | .length, e => .length e

/-- What is written right behind the base. Python and PHP have functions for the length. -/
def selector? (t : Target) : Access → Option String
  | .prop name _ => some (t.selector ++ name)
  | .item _ _ => some "["
  | .itemOr .key _ _ => some (if t = .python then ".get(" else "[")
  | .itemOr .position _ _ => some "["
  | .method name _ => some (t.selector ++ name ++ "(")
  | .length => if t = .typescript then some ".length" else none

/-- An access is written as its base, as far as that is one, and what selects from it. -/
theorem exists_base {a : Access} {e : Expr} {r : Code} (h : (a.of e).render t = .ok r) :
    ∃ c, e.render t = .ok c ∧
      ∀ s ∈ a.selector? t, (c.base ++ s).toList <+: r.text.toList := by
  cases a with
  | prop name ty =>
      cases t with
      | python | typescript | php =>
          obtain ⟨c, hc, h⟩ := bind_eq_ok.1 h
          cases pure_eq_ok.1 h
          refine ⟨c, hc, fun s hs => ?_⟩
          cases hs
          simp [Target.selector]
  | item selector key =>
      cases t with
      | python | typescript | php =>
          obtain ⟨c, hc, h⟩ := bind_eq_ok.1 h
          obtain ⟨k, _, h⟩ := bind_eq_ok.1 h
          cases pure_eq_ok.1 h
          refine ⟨c, hc, fun s hs => ?_⟩
          cases hs
          simp
  | itemOr selector key fallback =>
      cases t with
      | python =>
          cases selector with
          | position | key =>
              obtain ⟨c, hc, h⟩ := bind_eq_ok.1 h
              obtain ⟨k, _, h⟩ := bind_eq_ok.1 h
              obtain ⟨f, _, h⟩ := bind_eq_ok.1 h
              cases pure_eq_ok.1 h
              refine ⟨c, hc, fun s hs => ?_⟩
              cases hs
              simp [Code.callText]
      | typescript | php =>
          obtain ⟨c, hc, h⟩ := bind_eq_ok.1 h
          obtain ⟨k, _, h⟩ := bind_eq_ok.1 h
          obtain ⟨f, _, h⟩ := bind_eq_ok.1 h
          cases pure_eq_ok.1 h
          refine ⟨c, hc, fun s hs => ?_⟩
          cases selector with
          | position | key =>
              cases hs
              simp
  | method name args =>
      -- The method is a property of the base, and the base of the call is the code of the property.
      have hbase (text : String) : Code.base ⟨text, .access⟩ = text := rfl
      cases t with
      | python =>
          obtain ⟨p, hp, h⟩ := bind_eq_ok.1 h
          obtain ⟨c, hc, hp⟩ := bind_eq_ok.1 hp
          cases pure_eq_ok.1 hp
          obtain ⟨cs, _, h⟩ := bind_eq_ok.1 h
          obtain ⟨ns, _, h⟩ := bind_eq_ok.1 h
          cases pure_eq_ok.1 h
          refine ⟨c, hc, fun s hs => ?_⟩
          cases hs
          simp [Code.callText, Target.selector, hbase]
      | typescript =>
          obtain ⟨p, hp, h⟩ := bind_eq_ok.1 h
          obtain ⟨c, hc, hp⟩ := bind_eq_ok.1 hp
          cases pure_eq_ok.1 hp
          obtain ⟨cs, _, h⟩ := bind_eq_ok.1 h
          cases pure_eq_ok.1 h
          refine ⟨c, hc, fun s hs => ?_⟩
          cases hs
          simp [Code.typeScriptCall_function, Target.selector, hbase]
      | php =>
          obtain ⟨cs, _, h⟩ := bind_eq_ok.1 h
          obtain ⟨p, hp, h⟩ := bind_eq_ok.1 h
          obtain ⟨c, hc, hp⟩ := bind_eq_ok.1 hp
          cases pure_eq_ok.1 hp
          cases pure_eq_ok.1 h
          refine ⟨c, hc, fun s hs => ?_⟩
          cases hs
          simp [Code.phpCall, Target.selector, hbase]
  | length =>
      cases t with
      | python | php =>
          obtain ⟨c, hc, h⟩ := bind_eq_ok.1 h
          refine ⟨c, hc, fun s hs => ?_⟩
          cases hs
      | typescript =>
          obtain ⟨c, hc, h⟩ := bind_eq_ok.1 h
          cases pure_eq_ok.1 h
          refine ⟨c, hc, fun s hs => ?_⟩
          cases hs
          simp

/-- **Which bases are primaries**, of all expressions that do not begin with code of the caller, and
where a name at the beginning is an identifier. What is selected from stands in front of the
selector; it begins as a primary does just if the expression does not begin with an integer, which
is written there with its sign. With identifiers for names, no operator stands in the base outside
of brackets, so that it is selected from as a whole. -/
theorem isPrimary_base_iff {a : Access} {e : Expr} (hhatch : (e.foremost t).isHatch = false)
    (hname : ∀ name ∈ (e.foremost t).openingName? t, isIdentifier name = true) {r : Code}
    (h : (a.of e).render t = .ok r) :
    ∃ c, e.render t = .ok c ∧
      (∀ s ∈ a.selector? t, (c.base ++ s).toList <+: r.text.toList) ∧
      (Text.IsPrimary t c.base ↔ ∀ n, e.foremost t ≠ .literal (.int n)) ∧
      (∀ n, e.foremost t = .literal (.int n) → ∃ rest, c.base = toString n ++ rest) ∧
      (e.IsSpelled isIdentifier t → ∀ op ∈ operators t, ∀ {before after : List Char},
        c.base.toList = before ++ (op.toList ++ after) → ¬IsTopLevel t before) := by
  obtain ⟨c, hc, hwritten⟩ := exists_base h
  refine ⟨c, hc, hwritten, Expr.isPrimary_iff_foremost hhatch hname hc,
    fun n hn => Expr.base_of_int hn hc, fun hspell op hop _ _ htext => ?_⟩
  have htight := Code.tight_base (Expr.tagHolds_render onlySolid_isIdentifier hspell hc)
    (Expr.wellBracketed_render onlySolid_isIdentifier hspell hc)
  exact htight.not_isTopLevel hop htext

/-- A method of a sum of texts that PHP sees through a cast. -/
theorem isPrimary_base_of_cast :
    let parts : Expr := .cast .str (.text [.chars "-", .value (.var "n" none)])
    (parts.foremost .php).isHatch = false ∧
      ((Access.method "trim" []).of parts).render .php = .ok ⟨"('-' . $n)->trim()", .access⟩ ∧
      parts.render .php = .ok ⟨"'-' . $n", .product⟩ ∧ Text.IsPrimary .php "('-' . $n)" := by
  intro parts
  have hforemost : parts.foremost .php = .text [.chars "-", .value (.var "n" none)] := by
    rw [Expr.foremost_of_some rfl, Expr.foremost_of_none rfl]
  have hhatch : (parts.foremost .php).isHatch = false := by
    rw [hforemost]
    rfl
  have hname : ∀ name ∈ (parts.foremost .php).openingName? .php, isIdentifier name = true := by
    rw [hforemost]
    exact nofun
  have h : ((Access.method "trim" []).of parts).render .php =
      .ok ⟨"('-' . $n)->trim()", .access⟩ := rfl
  obtain ⟨c, hc, -, hiff, -⟩ := isPrimary_base_iff hhatch hname h
  cases hc
  refine ⟨hhatch, h, rfl, hiff.2 fun n => ?_⟩
  rw [hforemost]
  exact nofun

/-- Integers are left alone in front of selectors: the sign is that of the item, and the point
belongs to the number. -/
theorem accesses_of_integers :
    let first : Expr := (Access.item .position (.literal (.int 0))).of (.literal (.int (-5)))
    let name : Expr := (Access.prop "name" .any).of (.literal (.int 5))
    first.render .python = .ok ⟨"-5[0]", .access⟩ ∧
      first.render .typescript = .ok ⟨"-5[0]", .access⟩ ∧
      first.render .php = .ok ⟨"-5[0]", .access⟩ ∧
      name.render .python = .ok ⟨"5.name", .access⟩ ∧
      name.render .typescript = .ok ⟨"5.name", .access⟩ ∧
      name.render .php = .ok ⟨"5->name", .access⟩ ∧
      ∀ t, ¬Text.IsPrimary t (Code.base ⟨"-5", .literal⟩) ∧
        ¬Text.IsPrimary t (Code.base ⟨"5", .literal⟩) :=
  ⟨rfl, rfl, rfl, rfl, rfl, rfl, by intro t; cases t <;> decide⟩

end Access

end Polyglot
