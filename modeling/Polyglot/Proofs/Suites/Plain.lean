import Polyglot.Proofs.Stmt.Return
import Polyglot.Proofs.Suites.Count
import Polyglot.Proofs.Suites.Expr
import Polyglot.Proofs.Suites.Layout

/-!
# Suites of a statement without a body

Only the construction of a dict opens suites, one for each pair that may be left out.

* `Suite.IsFilled` : what stands in a suite.
* `Plain.LeadsWithCode` : what the caller has to see to.
* `Plain.hasCodeLine_iff` : a statement without a body writes a line of code if it counts as code.
* `Plain.opens_toPython` : the suites that it opens are filled.
-/

set_option autoImplicit false

namespace Polyglot

open Outcome

/-- What Python opens a suite for: a body of a statement, a pair of a dict that may be left out, a
function, an overload, or a class. -/
inductive Suite where
  | arm (body : Body)
  | guard
  | function
  | overload
  | classDef

/-- A suite has a line of code. The body of a control structure stands there as it is written, with
`pass` behind it if the body is silent and only then. -/
def Suite.IsFilled : Suite → List Layout → Prop
  | .arm body, ls =>
    Layout.HasCodeLine ls ∧ ∃ inner, body.toPython = .ok inner ∧
      (body.IsSilent ∧ ls = inner ++ [.line "pass"] ∨ ¬ body.IsSilent ∧ ls = inner)
  | .guard, ls | .function, ls | .overload, ls | .classDef, ls => Layout.HasCodeLine ls

theorem Suite.IsFilled.hasCodeLine {s : Suite} {ls : List Layout} (h : s.IsFilled ls) :
    Layout.HasCodeLine ls := by
  cases s with
  | arm body => exact h.1
  | guard | function | overload | classDef => exact h

theorem Suite.hasCodeLine_of_mem {ss : List Suite} {suites : List (List Layout)}
    (h : List.Forall₂ IsFilled ss suites) : ∀ suite ∈ suites, Layout.HasCodeLine suite := by
  induction h with
  | nil => exact nofun
  | cons hs _ ih => exact List.forall_mem_cons.2 ⟨hs.hasCodeLine, ih⟩

namespace Plain

/-- The suites of a statement without a body. -/
def suites : Plain → List Suite
  | .build b => b.guarded.map fun _ => .guard
  | _ => []

/-- The name or the code of the caller's that stands first in the Python text of the statement, if
there is one, begins with code. -/
def LeadsWithCode : Plain → Prop
  | .expr e => e.LeadsWithCode
  | .snippet codes => ∀ text, codes.python = .code text → Text.StartsWithCode text
  | .assign (.assign target _) => target.LeadsWithCode
  | .assign (.declare name _ _) => Text.StartsWithCode name
  | .append list _ => list.LeadsWithCode
  | .build b => Text.StartsWithCode b.name
  | .blank | .comment _ | .raise _ | .ret _ | .interface _ => True

end Plain

/-- A pair that may be left out is put into the dict in a suite of its own. -/
theorem BuilderEntry.opens_pythonGuard {name : String} (hname : Text.StartsWithCode name)
    {e : BuilderEntry} {ls : List Layout} (h : e.pythonGuard name = .ok ls) :
    Layout.Opens Suite.IsFilled [.guard] ls := by
  obtain ⟨test, -, h⟩ := bind_eq_ok.1 h
  obtain ⟨v, -, h⟩ := bind_eq_ok.1 h
  cases pure_eq_ok.1 h
  have hline : Text.StartsWithCode (name ++ "[" ++ Text.Quoted.encode e.key ++ "] = " ++ v) :=
    hname.append _ |>.append _ |>.append _ |>.append _
  exact .suite (Layout.opensSuite_append_colon _) (.cons hline []) (.line _)

namespace Plain

/-- A statement that counts as code is a line of code and what follows from pairs that may be left
out. -/
theorem exists_line_of_hasCode {p : Plain} (hlead : p.LeadsWithCode) (hcode : p.hasCode = true)
    {ls : List Layout} (h : p.toPython = .ok ls) :
    ∃ text rest, ls = .line text :: rest ∧ Text.StartsWithCode text ∧
      Layout.Opens Suite.IsFilled p.suites rest := by
  cases p with
  | blank | comment => cases hcode
  | interface => cases h
  | expr e =>
      obtain ⟨text, htext, h⟩ := bind_eq_ok.1 h
      cases pure_eq_ok.1 h
      exact ⟨text, [], rfl, Expr.startsWithCode_pythonText hlead htext, .nil⟩
  | snippet codes =>
      obtain ⟨python, typescript, php⟩ := codes
      cases python with
      | missing => cases h
      | omitted => cases hcode
      | code text =>
          cases h
          exact ⟨text, [], rfl, hlead text rfl, .nil⟩
  | raise r =>
      obtain ⟨m, -, h⟩ := bind_eq_ok.1 h
      cases pure_eq_ok.1 h
      exact ⟨_, [], rfl, .append (.append (.append (.append (by decide) _) _) _) _, .nil⟩
  | ret value =>
      cases homit : value.isOmit with
      | true =>
          rw [Expr.eq_omit_of_isOmit homit] at h
          cases h
          exact ⟨"return", [], rfl, by decide, .nil⟩
      | false =>
          rw [toPython_ret homit] at h
          obtain ⟨v, -, h⟩ := bind_eq_ok.1 h
          cases pure_eq_ok.1 h
          exact ⟨_, [], rfl, .append (by decide) _, .nil⟩
  | assign a =>
      cases a with
      | assign target value =>
          obtain ⟨t, ht, h⟩ := bind_eq_ok.1 h
          obtain ⟨v, -, h⟩ := bind_eq_ok.1 h
          cases pure_eq_ok.1 h
          have htarget := Expr.startsWithCode_pythonText (e := target) hlead ht
          exact ⟨_, [], rfl, htarget.append _ |>.append _, .nil⟩
      | declare name ty value =>
          obtain ⟨a, -, h⟩ := bind_eq_ok.1 h
          obtain ⟨v, -, h⟩ := bind_eq_ok.1 h
          cases pure_eq_ok.1 h
          exact ⟨_, [], rfl, .append (.append hlead _) _, .nil⟩
  | append list value =>
      obtain ⟨l, hl, h⟩ := bind_eq_ok.1 h
      obtain ⟨v, -, h⟩ := bind_eq_ok.1 h
      cases pure_eq_ok.1 h
      have hlist := Code.startsWithCode_base (Expr.startsWithCode_toPython (e := list) hlead hl)
      exact ⟨_, [], rfl, hlist.append _ |>.append _ |>.append _, .nil⟩
  | build b =>
      obtain ⟨pairs, -, h⟩ := bind_eq_ok.1 h
      obtain ⟨ty, -, h⟩ := bind_eq_ok.1 h
      obtain ⟨guards, hguards, h⟩ := bind_eq_ok.1 h
      cases pure_eq_ok.1 h
      have hopens := forall₂_of_mapM_eq_ok hguards fun e _ ls hls =>
        BuilderEntry.opens_pythonGuard hlead hls
      refine ⟨_, _, rfl, .append (.append (.append (.append (.append hlead _) _) _) _) _, ?_⟩
      rw [suites, List.map_eq_flatMap]
      exact .flatMap hopens

/-- A silent statement is lines without code. -/
theorem silent_toPython {p : Plain} (hcode : p.hasCode = false) {ls : List Layout}
    (h : p.toPython = .ok ls) :
    ¬ Layout.HasCodeLine ls ∧ Layout.Opens Suite.IsFilled p.suites ls := by
  cases p with
  | blank =>
      cases h
      exact ⟨Layout.not_hasCodeLine_blank, .line ""⟩
  | comment text =>
      cases h
      exact ⟨Layout.not_hasCodeLine_marked text, .map_line _ _⟩
  | snippet codes =>
      obtain ⟨python, typescript, php⟩ := codes
      cases python with
      | missing | code => cases hcode
      | omitted =>
          cases h
          exact ⟨Layout.not_hasCodeLine_nil, .nil⟩
  | expr | raise | ret | assign | append | build | interface => cases hcode

/-- A statement without a body writes a line of code if it counts as code, and only then. -/
theorem hasCodeLine_iff {p : Plain} (hlead : p.LeadsWithCode) {ls : List Layout}
    (h : p.toPython = .ok ls) : Layout.HasCodeLine ls ↔ p.hasCode = true := by
  cases hcode : p.hasCode with
  | false => exact iff_of_false (silent_toPython hcode h).1 Bool.false_ne_true
  | true =>
      obtain ⟨text, rest, rfl, htext, -⟩ := exists_line_of_hasCode hlead hcode h
      exact iff_of_true (.cons htext _) rfl

/-- The suites of a statement without a body are filled. -/
theorem opens_toPython {p : Plain} (hlead : p.LeadsWithCode) {ls : List Layout}
    (h : p.toPython = .ok ls) : Layout.Opens Suite.IsFilled p.suites ls := by
  cases hcode : p.hasCode with
  | false => exact (silent_toPython hcode h).2
  | true =>
      obtain ⟨text, rest, rfl, -, hopens⟩ := exists_line_of_hasCode hlead hcode h
      exact (Layout.Opens.line text).append hopens

/-- Several statements write a line of code if one of them counts as code, and open their suites one
after the other. -/
theorem suites_toPythonAll {ps : List Plain} (hlead : ∀ p ∈ ps, p.LeadsWithCode) {ls : List Layout}
    (h : toPythonAll ps = .ok ls) :
    (Layout.HasCodeLine ls ↔ ps.any hasCode = true) ∧
      Layout.Opens Suite.IsFilled (ps.flatMap suites) ls := by
  obtain ⟨lss, hlss, h⟩ := bind_eq_ok.1 h
  cases pure_eq_ok.1 h
  exact ⟨Layout.hasCodeLine_flatten_iff
      (forall₂_of_mapM_eq_ok hlss fun p hp ls hls => hasCodeLine_iff (hlead p hp) hls),
    .flatMap (forall₂_of_mapM_eq_ok hlss fun p hp ls hls => opens_toPython (hlead p hp) hls)⟩

end Plain

end Polyglot
