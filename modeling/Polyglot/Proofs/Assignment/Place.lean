import Polyglot.Proofs.Precedence.Honest
import Polyglot.Stmt.Plain

/-!
# What is assigned to

Code on the left of an assignment is a place where a value is kept: a variable, a property, or a
subscript. Subscripts with a fallback are accepted as targets of assignments, too, but their code is
no place in any language.

* `Code.IsPlace` : code that can be assigned to.
* `Code.getLast?_of_isPlace` : such code is no call.
* `Expr.isPlace_render`, `Expr.not_isPlace_render` : targets without and with a fallback.
* `Assignment.isPlace_iff_of_assign` : **targets of assignments in every language.**
-/

set_option autoImplicit false

namespace Polyglot

open Outcome Brackets

/-- What stands in front of the name of a variable. -/
def Target.varPrefix : Target → String
  | .python | .typescript => ""
  | .php => "$"

/-- What stands between an object and the name of its property. -/
def Target.selector : Target → String
  | .python | .typescript => "."
  | .php => "->"

/-- Code that can be assigned to, with the names that its variable or property may have. -/
inductive Code.IsPlace (t : Target) (names : String → Prop) : Code → Prop where
  | plain {name : String} : names name → IsPlace t names ⟨t.varPrefix ++ name, .literal⟩
  | property (owner : Code) {name : String} :
      names name → IsPlace t names ⟨owner.base ++ (t.selector ++ name), .access⟩
  | subscript {target key : Code} :
      IsPlace t names ⟨target.base ++ "[" ++ key.text ++ "]", .access⟩

namespace Expr

/-- Whether the expression has a value to take when nothing is there. -/
def hasFallback : Expr → Bool
  | .itemOr .. => true
  | _ => false

/-- The name at the end of a variable or a property. -/
def ownName? : Expr → Option String
  | .var name _ | .field name _ | .prop _ name _ => some name
  | _ => none

/-- The names of places: those without brackets, quotes and marks of operators, and whatever name
the expression gives. -/
def MayName (e : Expr) (name : String) : Prop := isSolid name = true ∨ e.ownName? = some name

end Expr

variable {t : Target} {names : String → Prop} {c : Code}

/-! ## The end of the code -/

namespace Code

theorem tag_of_isPlace (h : c.IsPlace t names) : c.tag = .literal ∨ c.tag = .access := by
  cases h with
  | plain => exact .inl rfl
  | property | subscript => exact .inr rfl

theorem not_mem_of_isSolid {name : String} (h : isSolid name = true) : ')' ∉ name.toList := by
  rw [isSolid, List.all_eq_true] at h
  exact fun hmem => absurd (h ')' hmem) (by decide)

/-- Code for a place with a plain name is no call: it does not end in a parenthesis. -/
theorem getLast?_of_isPlace (h : c.IsPlace t names)
    (hnames : ∀ name, names name → isSolid name = true) : c.text.toList.getLast? ≠ some ')' := by
  intro hlast
  cases h with
  | @plain name hname =>
      have hmem : ')' ∈ (t.varPrefix ++ name).toList := List.mem_of_getLast? hlast
      rw [String.toList_append, List.mem_append] at hmem
      rcases hmem with hmem | hmem
      · cases t <;> exact absurd hmem (by decide)
      · exact not_mem_of_isSolid (hnames name hname) hmem
  | @property owner name hname =>
      have hne : (t.selector ++ name).toList ≠ [] := by
        rw [String.toList_append]
        cases t <;> exact List.append_ne_nil_of_left_ne_nil (by decide) _
      rw [String.toList_append, List.getLast?_append_of_ne_nil _ hne] at hlast
      have hmem := List.mem_of_getLast? hlast
      rw [String.toList_append, List.mem_append] at hmem
      rcases hmem with hmem | hmem
      · cases t <;> exact absurd hmem (by decide)
      · exact not_mem_of_isSolid (hnames name hname) hmem
  | subscript =>
      rw [String.toList_append, List.getLast?_append_of_ne_nil _ (by decide)] at hlast
      cases hlast

theorem getLast?_callText (callee : String) (args : List String) :
    (callText callee args).toList.getLast? = some ')' := by
  rw [callText, String.toList_append, List.getLast?_append_of_ne_nil _ (by decide)]
  rfl

end Code

/-! ## Targets -/

namespace Expr

/-- A variable, a property or a subscript without a fallback is written as a place. -/
theorem isPlace_render {e value : Expr} {a : Assignment} (ha : Assignment.assign? e value = .ok a)
    (hfallback : e.hasFallback = false) (hc : e.render t = .ok c) : c.IsPlace t e.MayName := by
  cases e with
  | var name ty =>
      have hname : (Expr.var name ty).MayName name := .inr rfl
      cases t with
      | python | typescript =>
          cases hc
          rw [← String.empty_append (s := name)]
          exact .plain hname
      | php =>
          cases hc
          exact .plain hname
  | field name ty =>
      have hname : (Expr.field name ty).MayName name := .inr rfl
      cases t with
      | python =>
          cases hc
          exact .property ⟨"self", .literal⟩ hname
      | typescript =>
          cases hc
          exact .property ⟨"this", .literal⟩ hname
      | php =>
          cases hc
          exact .property ⟨"$this", .literal⟩ hname
  | prop owner name ty =>
      have hname : (Expr.prop owner name ty).MayName name := .inr rfl
      cases t with
      | python | typescript | php =>
          obtain ⟨o, _, hc⟩ := bind_eq_ok.1 hc
          cases pure_eq_ok.1 hc
          rw [String.append_assoc]
          exact .property o hname
  | item selector target key =>
      cases t with
      | python | typescript | php =>
          obtain ⟨o, _, hc⟩ := bind_eq_ok.1 hc
          obtain ⟨k, _, hc⟩ := bind_eq_ok.1 hc
          cases pure_eq_ok.1 hc
          exact .subscript
  | itemOr => cases hfallback
  | _ => cases ha

/-- A subscript with a fallback is written as a call of a method or with an operator. -/
theorem of_render_of_hasFallback {e : Expr} (hfallback : e.hasFallback = true)
    (hc : e.render t = .ok c) :
    (∃ (o : Code) (args : List String), c = ⟨Code.callText (o.base ++ ".get") args, .access⟩) ∨
      c.tag = .product ∨ c.tag = .sum := by
  cases e with
  | itemOr selector target key fallback =>
      cases t with
      | python =>
          cases selector with
          | position =>
              obtain ⟨_, _, hc⟩ := bind_eq_ok.1 hc
              obtain ⟨_, _, hc⟩ := bind_eq_ok.1 hc
              obtain ⟨_, _, hc⟩ := bind_eq_ok.1 hc
              cases pure_eq_ok.1 hc
              exact .inr (.inr rfl)
          | key =>
              obtain ⟨o, _, hc⟩ := bind_eq_ok.1 hc
              obtain ⟨k, _, hc⟩ := bind_eq_ok.1 hc
              obtain ⟨f, _, hc⟩ := bind_eq_ok.1 hc
              cases pure_eq_ok.1 hc
              exact .inl ⟨o, [k.text, f.text], rfl⟩
      | typescript =>
          obtain ⟨_, _, hc⟩ := bind_eq_ok.1 hc
          obtain ⟨_, _, hc⟩ := bind_eq_ok.1 hc
          obtain ⟨_, _, hc⟩ := bind_eq_ok.1 hc
          cases pure_eq_ok.1 hc
          exact .inr (.inr rfl)
      | php =>
          obtain ⟨_, _, hc⟩ := bind_eq_ok.1 hc
          obtain ⟨_, _, hc⟩ := bind_eq_ok.1 hc
          obtain ⟨_, _, hc⟩ := bind_eq_ok.1 hc
          cases pure_eq_ok.1 hc
          exact .inr (.inl rfl)
  | _ => cases hfallback

/-- The code of a subscript with a fallback is no place, whatever names places may have. -/
theorem not_isPlace_render {e : Expr} (hfallback : e.hasFallback = true) (hc : e.render t = .ok c) :
    ¬c.IsPlace t e.MayName := by
  intro hplace
  rcases of_render_of_hasFallback hfallback hc with ⟨o, args, rfl⟩ | htag | htag
  · refine Code.getLast?_of_isPlace hplace (fun name hname => ?_) (Code.getLast?_callText _ args)
    -- A subscript gives no name of its own.
    rcases hname with hsolid | hown
    · exact hsolid
    · cases e with
      | itemOr => cases hown
      | _ => cases hfallback
  · rcases Code.tag_of_isPlace hplace with h | h <;> exact absurd (htag.symm.trans h) (by decide)
  · rcases Code.tag_of_isPlace hplace with h | h <;> exact absurd (htag.symm.trans h) (by decide)

theorem isSolid_of_ownName? {e : Expr} (hspell : e.IsSpelled isSolid t) {name : String}
    (hname : e.ownName? = some name) : isSolid name = true := by
  cases e with
  | var _ _ | field _ _ =>
      cases hname
      exact hspell
  | prop _ _ _ =>
      cases hname
      exact hspell.2
  | _ => cases hname

end Expr

/-- **Targets of assignments.** What is accepted as the target of an assignment is written as a
place in every language if and only if it has no fallback. With solid names, and without code of
the caller, the place is no call and shows no operator. With a fallback, the code is a call of a
method or has the tag of an operator. -/
theorem Assignment.isPlace_iff_of_assign {e value : Expr} {a : Assignment}
    (ha : assign? e value = .ok a) (hc : e.render t = .ok c) :
    (c.IsPlace t e.MayName ↔ e.hasFallback = false) ∧
    (e.hasFallback = false → e.IsSpelled isSolid t →
      c.text.toList.getLast? ≠ some ')' ∧
      ∀ op ∈ operators t, ∀ {before after : List Char},
        c.text.toList = before ++ (op.toList ++ after) → ¬IsTopLevel t before) ∧
    (e.hasFallback = true →
      (∃ (o : Code) (args : List String), c = ⟨Code.callText (o.base ++ ".get") args, .access⟩) ∨
        c.tag = .product ∨ c.tag = .sum) := by
  refine ⟨⟨fun hplace => ?_, fun hnone => Expr.isPlace_render ha hnone hc⟩,
    fun hnone hspell => ?_, fun hsome => Expr.of_render_of_hasFallback hsome hc⟩
  · cases hfallback : e.hasFallback with
    | false => rfl
    | true => exact absurd hplace (Expr.not_isPlace_render hfallback hc)
  · have hplace := Expr.isPlace_render ha hnone hc
    have htag := Expr.tagHolds_render (fun _ h => h) hspell hc
    have hrank : c.tag.rank ≤ Precedence.access.rank := by
      rcases Code.tag_of_isPlace hplace with h | h
      · rw [h]
        decide
      · rw [h]
    refine ⟨Code.getLast?_of_isPlace hplace fun name hname => ?_,
      fun op hop _ _ htext => (htag hrank).not_isTopLevel hop htext⟩
    exact hname.elim id (Expr.isSolid_of_ownName? hspell)

/-- An entry of a property of an argument is a place in PHP. -/
theorem Assignment.isPlace_entryOfProperty :
    let target : Expr := .item .key (.prop (.var "order" none) "items" .any) (.literal (.str "a b"))
    (∃ a, Assignment.assign? target .null = .ok a) ∧
      target.render .php = .ok ⟨"$order->items['a b']", .access⟩ ∧
      target.IsSpelled isSolid .php ∧
      Code.IsPlace .php target.MayName ⟨"$order->items['a b']", .access⟩ ∧
      "$order->items['a b']".toList.getLast? ≠ some ')' := by
  intro target
  have ha : Assignment.assign? target .null = .ok (.assign target .null) := rfl
  have hc : target.render .php = .ok ⟨"$order->items['a b']", .access⟩ := rfl
  have hspell : target.IsSpelled isSolid .php := ⟨⟨rfl, rfl⟩, trivial⟩
  obtain ⟨hiff, hnever, -⟩ := Assignment.isPlace_iff_of_assign ha hc
  exact ⟨⟨_, ha⟩, hc, hspell, hiff.2 rfl, (hnever rfl hspell).1⟩

/-- A subscript with a fallback is accepted, and is written as a conditional expression, as a call
and as an operator between two values. -/
theorem Assignment.assigned_fallbacks :
    let target (selector : Selector) : Expr :=
      .itemOr selector (.var "xs" none) (.literal (.int 0)) (.literal (.int 1))
    (∀ selector, ∃ a, Assignment.assign? (target selector) .null = .ok a) ∧
      (target .position).render .python = .ok ⟨"xs[0] if len(xs) > 0 else 1", .sum⟩ ∧
      (target .key).render .python = .ok ⟨"xs.get(0, 1)", .access⟩ ∧
      (target .key).render .typescript = .ok ⟨"xs[0] !== undefined ? xs[0] : 1", .sum⟩ ∧
      (target .key).render .php = .ok ⟨"$xs[0] ?? 1", .product⟩ ∧
      ¬Code.IsPlace .php (target .key).MayName ⟨"$xs[0] ?? 1", .product⟩ :=
  ⟨fun _ => ⟨_, rfl⟩, rfl, rfl, rfl, rfl, Expr.not_isPlace_render rfl rfl⟩

end Polyglot
