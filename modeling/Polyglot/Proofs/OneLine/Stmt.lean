import Polyglot.Proofs.Imports.Need
import Polyglot.Proofs.Layout.Depth
import Polyglot.Proofs.OneLine.Expr
import Polyglot.Proofs.Stmt.Render
import Polyglot.Proofs.Stmt.Return
import Polyglot.Proofs.Text.Occurrences

/-!
# Statements on one line

Where no text of the caller's own holds a newline, the statements that consist of expressions are
one line each in Python and TypeScript, with the codes of the expressions in it as they are.

* `Plain.IsFlat` : nothing that the caller spells in a statement holds a newline.
* `Plain.IsLine` : a line of code for a statement, with its expressions.
* `Plain.isLine_and_written` : **flat expressions and statements are written on one line.**
-/

set_option autoImplicit false

namespace Polyglot

open Outcome Text

theorem Code.standsIn_base (c : Code) : StandsIn c.text c.base := by
  unfold base parenthesized
  split
  · exact ((StandsIn.self c.text).append_left "(").append_right ")"
  · exact .self c.text

/-! ## What the caller spells -/

namespace Plain

/-- Whether the statement is an expression, a return, a raise, an assignment or an append. -/
def isSimple : Plain → Bool
  | .expr _ | .ret _ | .raise _ | .assign _ | .append _ _ => true
  | .blank | .comment _ | .snippet _ | .build _ | .interface _ => false

/-- The texts that the caller spells in such a statement, outside its expressions: the class of a
raise, and the name and the type of a declaration. -/
def spelled (t : Target) : Plain → List String
  | .raise r => [r.classFor t]
  | .assign (.declare name ty _) => name :: ty.toList.flatMap (Ty.spelled t)
  | _ => []

/-- Nothing that the caller spells in the statement or in its expressions holds a newline. -/
def IsFlat (t : Target) (p : Plain) : Prop :=
  (∀ s ∈ p.spelled t, Text.IsLine s) ∧ ∀ e ∈ p.exprs, e.IsFlat t

/-- The expressions that are written for a statement: a return of the sentinel writes none. -/
def written : Plain → List Expr
  | .ret .omit => []
  | p => p.exprs

/-- A line for the statement: it holds no newline, the codes of the expressions stand in it as they
are, and there is something in it unless the caller gave nothing to write: an expression without
code, or a declaration that has not even a name. -/
structure IsLine (t : Target) (p : Plain) (code : String) : Prop where
  line : Text.IsLine code
  unsplit : ∀ e ∈ p.written, ∃ c, e.render t = .ok c ∧ StandsIn c.text code
  empty : code = "" → p = .assign (.declare "" none none) ∨
    ∃ e c, p = .expr e ∧ e.render t = .ok c ∧ c.text = ""

end Plain

/-! ## Parts of statements

The texts of expressions and types, and what is written behind a separator if there is anything, in
a language that writes flat code on one line. -/

section Parts

variable {t : Target} {s separator : String}

/-- The text of a flat expression. -/
theorem Expr.exists_of_text (ht : t ≠ .php) {e : Expr} (hflat : e.IsFlat t)
    (h : (do let c ← e.render t; return c.text) = Except.ok s) :
    IsLine s ∧ ∃ c, e.render t = .ok c ∧ s = c.text := by
  obtain ⟨c, hc, h⟩ := bind_eq_ok.1 h
  cases pure_eq_ok.1 h
  exact ⟨(hflat.hasLine_render ht).1 c hc, c, hc, rfl⟩

/-- The text of a flat expression that may be absent, behind a separator. -/
theorem Expr.exists_of_suffix (ht : t ≠ .php) {suffix : Option Expr → Except Error String}
    (hnone : suffix none = .ok "")
    (hsome : ∀ e, suffix (some e) = do
      let text ← (do let c ← e.render t; return c.text)
      return separator ++ text)
    (hsep : IsLine separator ∧ separator ≠ "") {e : Option Expr}
    (hflat : ∀ o ∈ e.toList, o.IsFlat t) (h : suffix e = .ok s) :
    IsLine s ∧ (s = "" → e = none) ∧
      ∀ o ∈ e.toList, ∃ c, o.render t = .ok c ∧ StandsIn c.text s := by
  cases e with
  | none =>
      rw [hnone] at h
      cases h
      simp +decide
  | some e =>
      rw [hsome] at h
      obtain ⟨text, htext, h⟩ := bind_eq_ok.1 h
      cases pure_eq_ok.1 h
      obtain ⟨hline, c, hc, rfl⟩ := exists_of_text ht (hflat e (by simp)) htext
      refine ⟨by simp [hsep.1, hline], by simp [hsep.2], ?_⟩
      simpa using ⟨c, hc, (StandsIn.self c.text).append_left separator⟩

/-- The text of a flat type that may be absent, behind a separator. -/
theorem Ty.isLine_of_suffix {suffix : Option Ty → Except Error String}
    {text : Ty → Except Error String} (hnone : suffix none = .ok "")
    (hsome : ∀ ty, suffix (some ty) = do
      let s ← text ty
      return separator ++ s)
    (hsep : IsLine separator ∧ separator ≠ "")
    (htext : ∀ ty : Ty, ty.IsFlat t → ∀ s, text ty = .ok s → IsLine s) {ty : Option Ty}
    (hflat : ∀ s ∈ ty.toList.flatMap (Ty.spelled t), IsLine s) (h : suffix ty = .ok s) :
    IsLine s ∧ (s = "" → ty = none) := by
  cases ty with
  | none =>
      rw [hnone] at h
      cases h
      simp +decide
  | some ty =>
      rw [hsome] at h
      obtain ⟨own, hown, h⟩ := bind_eq_ok.1 h
      cases pure_eq_ok.1 h
      have hty : ty.IsFlat t := by simpa [Ty.IsFlat] using hflat
      simp [hsep.1, hsep.2, htext ty hty own hown]

end Parts

/-! ## Statements -/

namespace Plain

variable {p : Plain} {ls : List Layout}

/-- A text that is never empty is a line for a statement if it is one for its expressions. -/
theorem IsLine.mk' {t : Target} {code : String} (hline : Text.IsLine code)
    (hunsplit : ∀ e ∈ p.written, ∃ c, e.render t = .ok c ∧ StandsIn c.text code)
    (hne : code ≠ "") : p.IsLine t code := ⟨hline, hunsplit, fun h => absurd h hne⟩

/-- A return of an expression that is written. -/
theorem written_ret {e : Expr} (h : e.isOmit = false) : (Plain.ret e).written = [e] := by
  cases e <;> first | rfl | cases h

theorem isLine_toPython (hsimple : p.isSimple = true) (hflat : p.IsFlat .python)
    (h : p.toPython = .ok ls) : ∃ code, ls = [.line code] ∧ p.IsLine .python code := by
  obtain ⟨hspelled, hexprs⟩ := hflat
  cases p with
  | blank | comment | snippet | build | interface => cases hsimple
  | expr e =>
      obtain ⟨s, hs, h⟩ := bind_eq_ok.1 h
      cases pure_eq_ok.1 h
      obtain ⟨hline, c, hc, rfl⟩ := Expr.exists_of_text (by decide) (hexprs e (by simp [exprs])) hs
      refine ⟨c.text, rfl, hline, ?_, fun hempty => .inr ⟨e, c, rfl, hc, hempty⟩⟩
      simpa [written, exprs] using ⟨c, hc, StandsIn.self c.text⟩
  | raise r =>
      obtain ⟨report, anyClass, classes⟩ := r
      obtain ⟨m, hm, h⟩ := bind_eq_ok.1 h
      cases pure_eq_ok.1 h
      have hclass := hspelled _ (List.mem_singleton_self _)
      cases report with
      | text s =>
          cases hm
          refine ⟨_, rfl, .mk' ?_ (by simp [written, exprs]) (by simp)⟩
          simp +decide [hclass, isLine_quoted]
      | value e =>
          obtain ⟨hline, c, hc, rfl⟩ :=
            Expr.exists_of_text (by decide) (hexprs e (by simp [exprs])) hm
          refine ⟨_, rfl, .mk' (by simp +decide [hclass, hline]) ?_ (by simp)⟩
          simpa [written, exprs] using
            ⟨c, hc, ((StandsIn.self c.text).append_left _).append_right ")"⟩
  | ret value =>
      cases homit : value.isOmit with
      | true =>
          rw [Expr.eq_omit_of_isOmit homit] at h ⊢
          cases h
          exact ⟨"return", rfl, .mk' (by decide) (by simp [written]) (by decide)⟩
      | false =>
          rw [toPython_ret homit] at h
          obtain ⟨v, hv, h⟩ := bind_eq_ok.1 h
          cases pure_eq_ok.1 h
          obtain ⟨hline, c, hc, rfl⟩ :=
            Expr.exists_of_text (by decide) (hexprs value (by simp [exprs])) hv
          refine ⟨_, rfl, .mk' (by simp +decide [hline]) ?_ (by simp)⟩
          simpa [written_ret homit] using ⟨c, hc, (StandsIn.self c.text).append_left "return "⟩
  | assign a =>
      cases a with
      | assign target value =>
          obtain ⟨l, hl, h⟩ := bind_eq_ok.1 h
          obtain ⟨v, hv, h⟩ := bind_eq_ok.1 h
          cases pure_eq_ok.1 h
          simp only [exprs, List.forall_mem_cons] at hexprs
          obtain ⟨htarget, hvalue, -⟩ := hexprs
          obtain ⟨hleft, c, hc, rfl⟩ := Expr.exists_of_text (by decide) htarget hl
          obtain ⟨hright, d, hd, rfl⟩ := Expr.exists_of_text (by decide) hvalue hv
          refine ⟨_, rfl, .mk' (by simp +decide [hleft, hright]) ?_ (by simp)⟩
          simp only [written, exprs, List.forall_mem_cons]
          refine ⟨⟨c, hc, ?_⟩, ⟨d, hd, ?_⟩, by simp⟩
          · exact ((StandsIn.self c.text).append_right _).append_right _
          · exact (StandsIn.self d.text).append_left _
      | declare name ty value =>
          obtain ⟨a, ha, h⟩ := bind_eq_ok.1 h
          obtain ⟨v, hv, h⟩ := bind_eq_ok.1 h
          cases pure_eq_ok.1 h
          obtain ⟨hname, hty⟩ := List.forall_mem_cons.1 hspelled
          obtain ⟨hline, hnotype⟩ := Ty.isLine_of_suffix rfl (fun _ => rfl) (by decide)
            (fun ty hflat s hs => Ty.isLine_pythonText hflat hs) hty ha
          obtain ⟨hvalue, hnovalue, hin⟩ :=
            Expr.exists_of_suffix (by decide) rfl (fun _ => rfl) (by decide) hexprs hv
          refine ⟨_, rfl, by simp [hname, hline, hvalue], ?_, fun hempty => .inl ?_⟩
          · intro o ho
            obtain ⟨c, hc, hin⟩ := hin o ho
            exact ⟨c, hc, hin.append_left _⟩
          · simp only [String.append_eq_empty_iff] at hempty
            obtain ⟨⟨hname, ha⟩, hv⟩ := hempty
            rw [hname, hnotype ha, hnovalue hv]
  | append list value =>
      obtain ⟨l, hl, h⟩ := bind_eq_ok.1 h
      obtain ⟨v, hv, h⟩ := bind_eq_ok.1 h
      cases pure_eq_ok.1 h
      simp only [exprs, List.forall_mem_cons] at hexprs
      obtain ⟨hlist, hvalue, -⟩ := hexprs
      obtain ⟨hline, c, hc, rfl⟩ := Expr.exists_of_text (by decide) hvalue hv
      have hl' := (hlist.hasLine_render (by decide)).1 l hl
      refine ⟨_, rfl, .mk' (by simp +decide [hl', hline]) ?_ (by simp)⟩
      simp only [written, exprs, List.forall_mem_cons]
      refine ⟨⟨l, hl, ?_⟩, ⟨c, hc, ?_⟩, by simp⟩
      · exact ((l.standsIn_base.append_right _).append_right _).append_right _
      · exact ((StandsIn.self c.text).append_left _).append_right _

theorem isLine_toTypeScript (hsimple : p.isSimple = true) (hflat : p.IsFlat .typescript)
    (h : p.toTypeScript = .ok ls) : ∃ code, ls = [.line code] ∧ p.IsLine .typescript code := by
  obtain ⟨hspelled, hexprs⟩ := hflat
  cases p with
  | blank | comment | snippet | build | interface => cases hsimple
  | expr e =>
      obtain ⟨s, hs, h⟩ := bind_eq_ok.1 h
      cases pure_eq_ok.1 h
      obtain ⟨hline, c, hc, rfl⟩ := Expr.exists_of_text (by decide) (hexprs e (by simp [exprs])) hs
      refine ⟨_, rfl, .mk' (by simp +decide [hline]) ?_ (by simp)⟩
      simpa [written, exprs] using ⟨c, hc, (StandsIn.self c.text).append_right ";"⟩
  | raise r =>
      obtain ⟨report, anyClass, classes⟩ := r
      obtain ⟨m, hm, h⟩ := bind_eq_ok.1 h
      cases pure_eq_ok.1 h
      have hclass := hspelled _ (List.mem_singleton_self _)
      cases report with
      | text s =>
          cases hm
          refine ⟨_, rfl, .mk' ?_ (by simp [written, exprs]) (by simp)⟩
          simp +decide [hclass, isLine_quoted]
      | value e =>
          obtain ⟨hline, c, hc, rfl⟩ :=
            Expr.exists_of_text (by decide) (hexprs e (by simp [exprs])) hm
          refine ⟨_, rfl, .mk' (by simp +decide [hclass, hline]) ?_ (by simp)⟩
          simpa [written, exprs] using
            ⟨c, hc, ((StandsIn.self c.text).append_left _).append_right ");"⟩
  | ret value =>
      cases homit : value.isOmit with
      | true =>
          rw [Expr.eq_omit_of_isOmit homit] at h ⊢
          cases h
          exact ⟨"return;", rfl, .mk' (by decide) (by simp [written]) (by decide)⟩
      | false =>
          rw [toTypeScript_ret homit] at h
          obtain ⟨v, hv, h⟩ := bind_eq_ok.1 h
          cases pure_eq_ok.1 h
          obtain ⟨hline, c, hc, rfl⟩ :=
            Expr.exists_of_text (by decide) (hexprs value (by simp [exprs])) hv
          refine ⟨_, rfl, .mk' (by simp +decide [hline]) ?_ (by simp)⟩
          simpa [written_ret homit] using
            ⟨c, hc, ((StandsIn.self c.text).append_left "return ").append_right ";"⟩
  | assign a =>
      cases a with
      | assign target value =>
          obtain ⟨l, hl, h⟩ := bind_eq_ok.1 h
          obtain ⟨v, hv, h⟩ := bind_eq_ok.1 h
          cases pure_eq_ok.1 h
          simp only [exprs, List.forall_mem_cons] at hexprs
          obtain ⟨htarget, hvalue, -⟩ := hexprs
          obtain ⟨hleft, c, hc, rfl⟩ := Expr.exists_of_text (by decide) htarget hl
          obtain ⟨hright, d, hd, rfl⟩ := Expr.exists_of_text (by decide) hvalue hv
          refine ⟨_, rfl, .mk' (by simp +decide [hleft, hright]) ?_ (by simp)⟩
          simp only [written, exprs, List.forall_mem_cons]
          refine ⟨⟨c, hc, ?_⟩, ⟨d, hd, ?_⟩, by simp⟩
          · exact (((StandsIn.self c.text).append_right _).append_right _).append_right _
          · exact ((StandsIn.self d.text).append_left _).append_right _
      | declare name ty value =>
          obtain ⟨a, ha, h⟩ := bind_eq_ok.1 h
          obtain ⟨v, hv, h⟩ := bind_eq_ok.1 h
          cases pure_eq_ok.1 h
          obtain ⟨hname, hty⟩ := List.forall_mem_cons.1 hspelled
          obtain ⟨hline, -⟩ := Ty.isLine_of_suffix rfl (fun _ => rfl) (by decide)
            (fun ty hflat s hs => Ty.isLine_typeScriptText hflat hs) hty ha
          obtain ⟨hvalue, -, hin⟩ :=
            Expr.exists_of_suffix (by decide) rfl (fun _ => rfl) (by decide) hexprs hv
          refine ⟨_, rfl, .mk' (by simp +decide [hname, hline, hvalue]) ?_ (by simp)⟩
          intro o ho
          obtain ⟨c, hc, hin⟩ := hin o ho
          exact ⟨c, hc, (hin.append_left _).append_right ";"⟩
  | append list value =>
      obtain ⟨l, hl, h⟩ := bind_eq_ok.1 h
      obtain ⟨v, hv, h⟩ := bind_eq_ok.1 h
      cases pure_eq_ok.1 h
      simp only [exprs, List.forall_mem_cons] at hexprs
      obtain ⟨hlist, hvalue, -⟩ := hexprs
      obtain ⟨hline, c, hc, rfl⟩ := Expr.exists_of_text (by decide) hvalue hv
      have hl' := (hlist.hasLine_render (by decide)).1 l hl
      refine ⟨_, rfl, .mk' (by simp +decide [hl', hline]) ?_ (by simp)⟩
      simp only [written, exprs, List.forall_mem_cons]
      refine ⟨⟨l, hl, ?_⟩, ⟨c, hc, ?_⟩, by simp⟩
      · exact ((l.standsIn_base.append_right _).append_right _).append_right _
      · exact ((StandsIn.self c.text).append_left _).append_right _

/-- A text on one line of the layout is one line of the file. -/
theorem writeAll_line {code : String} (h : Text.IsLine code) (indent : String) (depth : Nat) :
    Layout.writeAll indent depth [.line code] =
      if code = "" then "\n" else times depth indent ++ code ++ "\n" := by
  rw [Layout.writeAll, Layout.writeAll_nil, String.append_empty,
    Layout.write_line_of_not_mem h]

/-- **Flat expressions and statements are written on one line**, in Python and in TypeScript, with
arbitrary texts in literals, keys, literal types and texts that are put together. The code of a flat
expression holds no newline. An expression, a return, a raise, an assignment or an append is one
line of the layout, in which the codes of its expressions stand as they are, and it is written as
one line: the indentation of its depth and its code, or nothing at all if there is no code. -/
theorem isLine_and_written {t : Target} (ht : t ≠ .php) :
    (∀ e : Expr, e.IsFlat t → ∀ c, e.render t = .ok c → Text.IsLine c.text) ∧
    ∀ p : Plain, p.isSimple = true → p.IsFlat t → ∀ ls, (Stmt.plain p).layout t = .ok ls →
      ∃ code, ls = [.line code] ∧ p.IsLine t code ∧
        ∀ indent depth, Layout.writeAll indent depth ls =
          if code = "" then "\n" else times depth indent ++ code ++ "\n" := by
  refine ⟨fun e hflat => (hflat.hasLine_render ht).1, fun p hsimple hflat ls h => ?_⟩
  have hline : ∃ code, ls = [.line code] ∧ p.IsLine t code := by
    cases t with
    | python => exact isLine_toPython hsimple hflat h
    | typescript => exact isLine_toTypeScript hsimple hflat h
    | php => exact absurd rfl ht
  obtain ⟨code, rfl, hline⟩ := hline
  exact ⟨code, rfl, hline, writeAll_line hline.line⟩

/-- A return of a dict whose key and value are texts of two lines. -/
theorem isLine_and_written_of_return :
    let value : Expr := .text [.chars "x\ny", .value (.var "z" none)]
    let p : Plain := .ret (.dict [("a\nb", value)] .str)
    Target.python ≠ .php ∧ p.isSimple = true ∧ p.IsFlat .python ∧ ∃ code,
      (Stmt.plain p).layout .python = .ok [.line code] ∧ code = "return \x7b'a\\nb': " ++
        "f\"x\\ny\x7bz\x7d\"\x7d" ∧ Text.IsLine code ∧
      Layout.writeAll "  " 2 [.line code] = "    " ++ code ++ "\n" := by
  intro value p
  have hvar : (Expr.var "z" none).IsFlat .python := Expr.isFlat_of_operands_eq_nil rfl (by decide)
  have hvalue : value.IsFlat .python :=
    Expr.isFlat_of_operands_eq_singleton rfl (fun s hs => nomatch hs) hvar
  have hflat : p.IsFlat .python := by
    refine ⟨(fun s hs => nomatch hs), fun e he => ?_⟩
    rw [List.mem_singleton.1 he]
    exact Expr.isFlat_of_operands_eq_singleton rfl (fun s hs => nomatch hs) hvalue
  refine ⟨by decide, rfl, hflat, ?_⟩
  have hlayout : (Stmt.plain p).layout .python = .ok [.line ("return \x7b'a\\nb': " ++
      "f\"x\\ny\x7bz\x7d\"\x7d")] := rfl
  obtain ⟨code, hls, hline, hwritten⟩ :=
    (isLine_and_written (t := .python) (by decide)).2 p rfl hflat _ hlayout
  cases hls
  exact ⟨_, hlayout, rfl, hline.line, hwritten "  " 2⟩

/-- Where there is no code, there is no indentation either: a variable without a name. And the class
of a raise is written as the caller spells it, on two lines if it has two. -/
theorem written_without_code :
    (Expr.var "" none).IsFlat .python ∧
    (Stmt.plain (.expr (.var "" none))).layout .python = .ok [.line ""] ∧
    Layout.writeAll "    " 1 [.line ""] = "\n" ∧
    Layout.writeAll "    " 1 [.line ""] ≠ times 1 "    " ++ "" ++ "\n" ∧
    (Stmt.plain (.raise ⟨.text "m", some "A\nB", ⟨none, none, none⟩⟩)).layout .python =
      .ok [.line "raise A\nB('m')"] ∧
    Layout.writeAll "    " 1 [.line "raise A\nB('m')"] = "    raise A\n" ++ "    B('m')\n" := by
  have hflat : (Expr.var "" none).IsFlat .python := Expr.isFlat_of_operands_eq_nil rfl (by decide)
  exact ⟨hflat, rfl, by decide, by decide, rfl, by decide⟩

end Plain

end Polyglot
