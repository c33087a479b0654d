import Polyglot.Proofs.Access.Lists
import Polyglot.Proofs.Access.Primary
import Polyglot.Proofs.Expr.Lists

/-!
# Callees of new objects

TypeScript and PHP write `new` in front of a callee and its arguments behind it. The callee is
parenthesized by the rule for bases, which leaves calls alone, while the word `new` takes the first
argument list that no other word `new` has taken.

* `Expr.calls`, `Expr.news` : what is written at the beginning of a base outside of parentheses.
* `Expr.isCallee_base` : a base stands as a callee with its calls.
* `Creation.read_callee_iff` : **which callees are read as they were meant.**
-/

set_option autoImplicit false

namespace Polyglot

open Outcome Brackets Creation

variable {t : Target}

namespace Creation.IsCallee

variable {k m : Nat} {a : String}

theorem of_isPrimary (h : Opens t 0 a) (ha : Text.IsPrimary t a) : IsCallee t 0 0 a :=
  .of_opens h ha.ne_empty

theorem of_isIdentifier (h : isIdentifier a = true) : IsCallee t 0 0 a :=
  .of_isPrimary (.of_isSolid (onlySolid_isIdentifier a h)) (.of_isIdentifier h)

/-- A subscript of a callee. -/
theorem subscript (ha : IsCallee t k m a) {key : String} (hkey : WellBracketed t key) :
    IsCallee t k m (a ++ "[" ++ key ++ "]") := by
  have hitem := ha.append (.square hkey)
  rwa [← String.append_assoc, ← String.append_assoc] at hitem

/-- A call of a callee in TypeScript, or the creation of an object by it. -/
theorem typeScriptCall (ha : IsCallee .typescript k m a) (construct : Bool) {args : List Code}
    (hargs : WellBracketed .typescript (", ".intercalate (args.map Code.text))) :
    IsCallee .typescript (if construct then k + 1 else k) (if construct then m else m + 1)
      (Code.typeScriptCall a construct args) := by
  cases construct with
  | false =>
      rw [Code.typeScriptCall_function, ← String.append_assoc, ← String.append_assoc]
      exact ha.call hargs
  | true => exact ha.new hargs

end Creation.IsCallee

namespace Expr

/-- The calls in the code of an expression that are not enclosed in brackets, as the first operand
of selectors and of each other. The creation of an object is none, but its callee may hold some. -/
def calls (t : Target) : Expr → Nat
  | .cast _ value => if t = .php then value.calls t else 0
  | .item _ target _ => target.calls t
  | .prop owner _ _ => owner.calls t
  | .call _ construct _ _ => if construct then 0 else 1
  | .apply callee construct _ _ =>
    if construct then if t = .typescript then callee.calls t else 0 else callee.calls t + 1
  | .not (.not operand) => operand.calls t
  | .length value => if t = .typescript then value.calls t else 1
  | .isType test _ => if t = .typescript ∧ test ≠ .list then 0 else 1
  | _ => 0

/-- The words `new` that the code of an expression begins with in front of a selector. -/
def news (t : Target) : Expr → Nat
  | .item _ target _ => target.news t
  | .prop owner _ _ => owner.news t
  | .call _ construct _ _ => if construct then if t = .typescript then 1 else 0 else 0
  | .apply callee construct _ _ =>
    if construct then if t = .typescript then callee.news t + 1 else 0 else callee.news t
  | .not (.not operand) => operand.news t
  | .length value => if t = .typescript then value.news t else 0
  | _ => 0

/-- PHP encloses new objects in parentheses there. -/
theorem news_php (e : Expr) : e.news .php = 0 := by
  fun_induction news .php e <;> simp_all

theorem ne_empty_int (n : Int) : toString n ≠ "" := by
  obtain ⟨d, ds, -, hn⟩ := Token.exists_digits n
  intro hempty
  have hnil : n.repr.toList = [] := congrArg String.toList hempty
  rw [hnil] at hn
  exact hn.elim nofun nofun

theorem onlyInert_isIdentifier : OnlyInert isIdentifier := onlySolid_isIdentifier.inert

/-- What is parenthesized stands as a callee by itself. -/
theorem isCallee_of_isOperation {e : Expr} (hoperation : e.isOperation t = true)
    (hspell : e.IsSpelled isIdentifier t) {c : Code} (hc : e.render t = .ok c) :
    IsCallee t 0 0 c.base := by
  have hbrackets := wellBracketed_render onlySolid_isIdentifier hspell hc
  have hloose : Precedence.access.rank < c.tag.rank := by
    rcases tag_of_isOperation hoperation c hc with h | h <;> rw [h] <;> decide
  rw [Code.base, if_pos hloose]
  exact .parenthesized hbrackets

/-! ## TypeScript -/

/-- The TypeScript code of an expression as a callee. -/
theorem isCallee_toTypeScript (e : Expr) (hspell : e.IsSpelled isIdentifier .typescript) {c : Code}
    (h : e.toTypeScript = .ok c) :
    IsCallee .typescript (e.news .typescript) (e.calls .typescript) c.base := by
  cases e with
  | literal value =>
      cases h
      cases value with
      | bool b => cases b <;> exact .of_opens (.of_isSolid rfl) (by decide)
      | int n => exact .of_opens (.of_isSolid (isSolid_int n)) (ne_empty_int n)
      | str s =>
          exact .of_isPrimary (Text.Quoted.opens_encode (by decide) s) (.quoted (by decide) s)
  | null | «omit» =>
      cases h
      exact .of_opens (.of_isSolid rfl) (by decide)
  | list items _ =>
      obtain ⟨cs, hcs, h⟩ := bind_eq_ok.1 h
      cases pure_eq_ok.1 h
      have hitems := wellBracketed_toTypeScriptAll onlyInert_isIdentifier items hspell hcs
      exact .of_isPrimary (.square (Code.wellBracketed_commas hitems)) (.around (by decide) _ _)
  | dict entries _ =>
      obtain ⟨es, hes, h⟩ := bind_eq_ok.1 h
      cases pure_eq_ok.1 h
      have hvalues := wellBracketed_toTypeScriptNamed onlyInert_isIdentifier entries hspell hes
      have hentries := Code.wellBracketed_entries ": "
        (Text.Quoted.wellBracketed_encode (by decide)) (.lit rfl) hvalues
      exact .of_isPrimary (.curly hentries) (.around (by decide) _ _)
  | cast ty value =>
      obtain ⟨v, hv, h⟩ := bind_eq_ok.1 h
      obtain ⟨text, htext, h⟩ := bind_eq_ok.1 h
      cases pure_eq_ok.1 h
      have hvalue := Code.wellBracketed_base
        (wellBracketed_toTypeScript onlyInert_isIdentifier value hspell.2 hv)
      have hty := Ty.IsSpelled.wellBracketed_typeScriptText onlyInert_isIdentifier hspell.1 htext
      have hinner : WellBracketed .typescript (v.base ++ " as " ++ text) :=
        hvalue.add rfl |>.wrap hty
      have hparens : "(" ++ v.base ++ " as " ++ text ++ ")" =
          Code.parenthesized (v.base ++ " as " ++ text) := by
        simp only [Code.parenthesized, String.append_assoc]
      exact hparens ▸ IsCallee.parenthesized hinner
  | item _ target key =>
      obtain ⟨b, hb, h⟩ := bind_eq_ok.1 h
      obtain ⟨k, hk, h⟩ := bind_eq_ok.1 h
      cases pure_eq_ok.1 h
      have hkey := wellBracketed_toTypeScript onlyInert_isIdentifier key hspell.2 hk
      exact (isCallee_toTypeScript target hspell.1 hb).subscript hkey
  | itemOr selector _ _ _ =>
      cases selector with
      | position | key => exact isCallee_of_isOperation (t := .typescript) rfl hspell h
  | var name _ =>
      cases h
      exact .of_isIdentifier hspell
  | field name _ =>
      cases h
      exact .append (.of_opens (.of_isSolid rfl) (by decide)) (.of_isIdentifier hspell)
  | prop owner name _ =>
      obtain ⟨b, hb, h⟩ := bind_eq_ok.1 h
      cases pure_eq_ok.1 h
      exact (isCallee_toTypeScript owner hspell.1 hb).append (.of_isSolid rfl)
        |>.append (.of_isIdentifier hspell.2)
  | call callee construct args named =>
      cases named with
      | cons _ _ => cases h
      | nil =>
          obtain ⟨cs, hcs, h⟩ := bind_eq_ok.1 h
          cases pure_eq_ok.1 h
          have hargs := Code.wellBracketed_commas
            (wellBracketed_toTypeScriptAll onlyInert_isIdentifier args hspell.2.1 hcs)
          exact (IsCallee.of_isIdentifier hspell.1).typeScriptCall construct hargs
  | apply callee construct args named =>
      cases named with
      | cons _ _ => cases h
      | nil =>
          obtain ⟨b, hb, h⟩ := bind_eq_ok.1 h
          obtain ⟨cs, hcs, h⟩ := bind_eq_ok.1 h
          cases pure_eq_ok.1 h
          have hargs := Code.wellBracketed_commas
            (wellBracketed_toTypeScriptAll onlyInert_isIdentifier args hspell.2.1 hcs)
          exact (isCallee_toTypeScript callee hspell.1 hb).typeScriptCall construct hargs
  | text parts =>
      obtain ⟨ps, hps, h⟩ := bind_eq_ok.1 h
      cases pure_eq_ok.1 h
      have hpieces := Part.isPiece_toTypeScriptAll onlyInert_isIdentifier parts hspell hps
      have hfronts := Part.fronts_toTypeScriptAll onlyInert_isIdentifier hspell hps
      exact .of_isPrimary (Text.Template.opens hpieces hfronts) (.around (by decide) _ _)
  | not operand =>
      cases operand with
      | not inner => exact isCallee_toTypeScript inner hspell h
      | _ => exact isCallee_of_isOperation (t := .typescript) rfl hspell h
  | length value =>
      obtain ⟨b, hb, h⟩ := bind_eq_ok.1 h
      cases pure_eq_ok.1 h
      exact (isCallee_toTypeScript value hspell hb).append (.of_isSolid rfl)
  | isType test value =>
      cases test with
      | str | int | bool => exact isCallee_of_isOperation (t := .typescript) rfl hspell h
      | list =>
          obtain ⟨b, hb, h⟩ := bind_eq_ok.1 h
          cases pure_eq_ok.1 h
          have hvalue := Code.wellBracketed_base
            (wellBracketed_toTypeScript onlyInert_isIdentifier value hspell hb)
          have htest : IsCallee .typescript 0 0 "Array.isArray" :=
            .of_opens (.of_isSolid rfl) (by decide)
          exact htest.call hvalue
  | only | perTarget => exact hspell.elim
  | junction | isNull | compare | supplied | await =>
      exact isCallee_of_isOperation (t := .typescript) rfl hspell h

/-! ## PHP -/

/-- The PHP code of an expression as a callee. -/
theorem isCallee_toPhp (e : Expr) (hspell : e.IsSpelled isIdentifier .php) {c : Code}
    (h : e.toPhp = .ok c) : IsCallee .php 0 (e.calls .php) c.base := by
  cases e with
  | literal value =>
      cases h
      cases value with
      | bool b => cases b <;> exact .of_opens (.of_isSolid rfl) (by decide)
      | int n => exact .of_opens (.of_isSolid (isSolid_int n)) (ne_empty_int n)
      | str s => exact .of_isPrimary (Text.SingleQuoted.opens_encode s) (.singleQuoted s)
  | null =>
      cases h
      exact .of_opens (.of_isSolid rfl) (by decide)
  | «omit» | supplied | await => cases h
  | list items _ =>
      obtain ⟨cs, hcs, h⟩ := bind_eq_ok.1 h
      cases pure_eq_ok.1 h
      have hitems := wellBracketed_toPhpAll onlyInert_isIdentifier items hspell hcs
      exact .of_isPrimary (.square (Code.wellBracketed_commas hitems)) (.around (by decide) _ _)
  | dict entries _ =>
      obtain ⟨es, hes, h⟩ := bind_eq_ok.1 h
      cases pure_eq_ok.1 h
      have hvalues := wellBracketed_toPhpNamed onlyInert_isIdentifier entries hspell hes
      have hentries := Code.wellBracketed_entries " => " Text.SingleQuoted.wellBracketed_encode
        (.lit rfl) hvalues
      exact .of_isPrimary (.square hentries) (.around (by decide) _ _)
  | cast _ value => exact isCallee_toPhp value hspell.2 h
  | item _ target key =>
      obtain ⟨b, hb, h⟩ := bind_eq_ok.1 h
      obtain ⟨k, hk, h⟩ := bind_eq_ok.1 h
      cases pure_eq_ok.1 h
      exact (isCallee_toPhp target hspell.1 hb).subscript
        (wellBracketed_toPhp onlyInert_isIdentifier key hspell.2 hk)
  | itemOr selector _ _ _ =>
      cases selector with
      | position | key => exact isCallee_of_isOperation (t := .php) rfl hspell h
  | var name _ =>
      cases h
      exact .append (.of_opens (.of_isSolid rfl) (by decide)) (.of_isIdentifier hspell)
  | field name _ =>
      cases h
      exact .append (.of_opens (.of_isSolid rfl) (by decide)) (.of_isIdentifier hspell)
  | prop owner name _ =>
      obtain ⟨b, hb, h⟩ := bind_eq_ok.1 h
      cases pure_eq_ok.1 h
      exact (isCallee_toPhp owner hspell.1 hb).append (.of_isSolid rfl)
        |>.append (.of_isIdentifier hspell.2)
  | call callee construct args named =>
      cases named with
      | cons _ _ => cases h
      | nil =>
          cases construct with
          | true => exact isCallee_of_isOperation (t := .php) rfl hspell h
          | false =>
              obtain ⟨cs, hcs, h⟩ := bind_eq_ok.1 h
              cases pure_eq_ok.1 h
              exact (IsCallee.of_isIdentifier hspell.1).call (Code.wellBracketed_commas
                (wellBracketed_toPhpAll onlyInert_isIdentifier args hspell.2.1 hcs))
  | apply callee construct args named =>
      cases named with
      | cons _ _ => cases h
      | nil =>
          cases construct with
          | true => exact isCallee_of_isOperation (t := .php) rfl hspell h
          | false =>
              obtain ⟨cs, hcs, h⟩ := bind_eq_ok.1 h
              obtain ⟨b, hb, h⟩ := bind_eq_ok.1 h
              cases pure_eq_ok.1 h
              exact (isCallee_toPhp callee hspell.1 hb).call (Code.wellBracketed_commas
                (wellBracketed_toPhpAll onlyInert_isIdentifier args hspell.2.1 hcs))
  | text parts =>
      cases parts with
      | nil =>
          cases h
          exact .of_isPrimary (Text.SingleQuoted.opens_encode "") (.singleQuoted "")
      | cons _ _ => exact isCallee_of_isOperation (t := .php) rfl hspell h
  | not operand =>
      cases operand with
      | not inner => exact isCallee_toPhp inner hspell h
      | _ => exact isCallee_of_isOperation (t := .php) rfl hspell h
  | length value =>
      obtain ⟨b, hb, h⟩ := bind_eq_ok.1 h
      cases pure_eq_ok.1 h
      exact (IsCallee.of_isIdentifier (a := "count") rfl).call
        (wellBracketed_toPhp onlyInert_isIdentifier value hspell hb)
  | isType test value =>
      obtain ⟨b, hb, h⟩ := bind_eq_ok.1 h
      cases pure_eq_ok.1 h
      have hfunction : isIdentifier test.phpFunction = true := by cases test <;> rfl
      exact (IsCallee.of_isIdentifier hfunction).call
        (wellBracketed_toPhp onlyInert_isIdentifier value hspell hb)
  | only | perTarget => exact hspell.elim
  | junction | isNull | compare => exact isCallee_of_isOperation (t := .php) rfl hspell h

/-- A base stands as a callee with its words `new` and its calls. -/
theorem isCallee_base (ht : t ≠ .python) {e : Expr} (hspell : e.IsSpelled isIdentifier t)
    {c : Code} (hc : e.render t = .ok c) : IsCallee t (e.news t) (e.calls t) c.base := by
  cases t with
  | python => exact absurd rfl ht
  | typescript => exact isCallee_toTypeScript e hspell hc
  | php =>
      rw [e.news_php]
      exact isCallee_toPhp e hspell hc

end Expr

/-! ## New objects -/

namespace Creation

/-- The creation of an object by the value of an expression. -/
theorem exists_of_render (ht : t ≠ .python) {callee : Expr} {args : List Expr}
    {named : List (String × Expr)} {r : Code}
    (h : (Expr.apply callee true args named).render t = .ok r) :
    ∃ c cs, callee.render t = .ok c ∧ args.mapM (·.render t) = .ok cs ∧
      r.text = "new " ++ (c.base ++ "(" ++ (", ".intercalate (cs.map Code.text) ++ ")")) := by
  cases t with
  | python => exact absurd rfl ht
  | typescript =>
      cases named with
      | cons _ _ => cases h
      | nil =>
          obtain ⟨c, hc, h⟩ := bind_eq_ok.1 h
          obtain ⟨cs, hcs, h⟩ := bind_eq_ok.1 h
          cases pure_eq_ok.1 h
          rw [Expr.toTypeScriptAll_eq_mapM] at hcs
          exact ⟨c, cs, hc, hcs, by simp [Code.typeScriptCall, String.append_assoc]⟩
  | php =>
      cases named with
      | cons _ _ => cases h
      | nil =>
          obtain ⟨cs, hcs, h⟩ := bind_eq_ok.1 h
          obtain ⟨c, hc, h⟩ := bind_eq_ok.1 h
          cases pure_eq_ok.1 h
          rw [Expr.toPhpAll_eq_mapM] at hcs
          exact ⟨c, cs, hc, hcs, by simp [Code.phpCall, String.append_assoc]⟩

/-- The arguments of a creation are a list of their own. -/
theorem wellBracketed_args {args : List Expr} (hspell : Expr.AllSpelled isIdentifier t args)
    {cs : List Code} (hcs : args.mapM (·.render t) = .ok cs) :
    WellBracketed t (", ".intercalate (cs.map Code.text)) := by
  refine Code.wellBracketed_commas ?_
  cases t with
  | python =>
      exact Expr.wellBracketed_toPythonAll onlySolid_isIdentifier.inert args hspell
        ((Expr.toPythonAll_eq_mapM args).trans hcs)
  | typescript =>
      exact Expr.wellBracketed_toTypeScriptAll onlySolid_isIdentifier.inert args hspell
        ((Expr.toTypeScriptAll_eq_mapM args).trans hcs)
  | php =>
      exact Expr.wellBracketed_toPhpAll onlySolid_isIdentifier.inert args hspell
        ((Expr.toPhpAll_eq_mapM args).trans hcs)

/-- **Which callees are read as they were meant**, in the languages with a word `new`. Behind that
word stand the base of the callee and the list of the arguments. The list of the arguments is the
first one just if the base has no calls and no words `new` outside of parentheses. With the lists
that its own words `new` take, the base is read as a whole just if it has no calls; otherwise the
callee ends in front of one of its own argument lists. -/
theorem read_callee_iff (ht : t ≠ .python) {callee : Expr} {args : List Expr}
    {named : List (String × Expr)} (hspell : callee.IsSpelled isIdentifier t) {r : Code}
    (h : (Expr.apply callee true args named).render t = .ok r) :
    ∃ c cs, callee.render t = .ok c ∧ args.mapM (·.render t) = .ok cs ∧
      let list := ", ".intercalate (cs.map Code.text)
      let behind := c.base ++ "(" ++ (list ++ ")")
      r.text = "new " ++ behind ∧
        (Expr.AllSpelled isIdentifier t args → WellBracketed t list) ∧
        ((callees t behind).head? = some c.base ↔ callee.news t = 0 ∧ callee.calls t = 0) ∧
        (read t behind = some c.base ↔ callee.calls t = 0) ∧
        (callee.calls t ≠ 0 →
          ∃ front after, read t behind = some front ∧ c.base = front ++ "(" ++ after) := by
  obtain ⟨c, cs, hc, hcs, htext⟩ := exists_of_render ht h
  obtain ⟨hfirst, hread, hcut⟩ := (Expr.isCallee_base ht hspell hc).read_iff
    (", ".intercalate (cs.map Code.text) ++ ")")
  exact ⟨c, cs, hc, hcs, htext, fun hargs => wellBracketed_args hargs hcs, hfirst, hread, hcut⟩

/-- A class that is a property of a new object, which takes its list first. -/
theorem read_callee_of_new :
    let callee : Expr := .prop (.call "A" true [.var "x" none] []) "b" .any
    let creation : Expr := .apply callee true [.var "y" none] []
    callee.IsSpelled isIdentifier .typescript ∧
      creation.render .typescript = .ok ⟨"new new A(x).b(y)", .access⟩ ∧
      callee.render .typescript = .ok ⟨"new A(x).b", .access⟩ ∧
      read .typescript "new A(x).b(y)" = some "new A(x).b" := by
  intro callee creation
  have hspell : callee.IsSpelled isIdentifier .typescript :=
    ⟨⟨rfl, ⟨rfl, trivial⟩, trivial, nofun⟩, rfl⟩
  have h : creation.render .typescript = .ok ⟨"new new A(x).b(y)", .access⟩ := rfl
  obtain ⟨c, cs, hc, hcs, -, -, -, hread, -⟩ := read_callee_iff (by decide) hspell h
  cases hc
  cases hcs
  exact ⟨hspell, h, rfl, hread.2 rfl⟩

/-- The object of a class that a function returns is read as the result of a function that is
constructed itself. -/
theorem read_callee_of_call :
    let callee : Expr := .call "f" false [] []
    let creation : Expr := .apply callee true [.literal (.int 1)] []
    ∀ t, t ≠ .python → (creation.render t).map Code.text = .ok "new f()(1)" ∧
      (callee.render t).map Code.base = .ok "f()" ∧
      (callees t "f()(1)").head? = some "f" ∧ read t "f()(1)" = some "f" := by
  intro callee creation t ht
  cases t with
  | python => exact absurd rfl ht
  | typescript | php => exact ⟨rfl, rfl, by decide, by decide⟩

end Creation

end Polyglot
