import Polyglot.Proofs.Suites.Class

/-!
# Suites in Python are never empty

Python opens a suite for every body of a control structure, for every function, method, constructor
and overload, for every class, and for every pair of a dict that may be left out. Each of them has a
line of code, not counting what is nested deeper.

* `Body.suites` : what Python opens a suite for in a body, at any depth, from top to bottom.
* `Body.LeadsWithCode` : what the caller has to see to.
* `Body.hasCodeLine_iff` : a body writes a line of code if it has code.
* `Body.suites_filled` : the suites of a written body are those of the tree, and each is filled.
-/

set_option autoImplicit false

namespace Polyglot

open Outcome

mutual

/-- What Python opens a suite for in a body, at any depth, from top to bottom. -/
def Body.suites : Body → List Suite
  | ⟨_, stmts⟩ => Stmt.suitesAll stmts

/-- What Python opens a suite for in a function. -/
def Function.suites : Function → List Suite
  | ⟨signature, body⟩ => (signature.overloads.map fun _ => .overload) ++ .function :: body.suites

def Function.suitesAll : List Function → List Suite
  | [] => []
  | f :: fs => f.suites ++ Function.suitesAll fs

def Branches.suites : Branches → List Suite
  | .done => []
  | .otherwise body => .arm body :: body.suites
  | .elseIf _ body rest => .arm body :: (body.suites ++ rest.suites)

def Handlers.suites : Handlers → List Suite
  | .done => []
  | .cleanup body => .arm body :: body.suites
  | .handler _ body rest => .arm body :: (body.suites ++ rest.suites)

/-- What Python opens a suite for in a statement. -/
def Stmt.suites : Stmt → List Suite
  | .plain p => p.suites
  | .conditional _ body branches => .arm body :: (body.suites ++ branches.suites)
  | .forEach _ _ body | .forEntries _ _ _ body => .arm body :: body.suites
  | .attempt body handlers => .arm body :: (body.suites ++ handlers.suites)
  | .function f => f.suites
  | .classDef c methods => .classDef :: (c.constructorSuites ++ Function.suitesAll methods)
  | .block body => body.suites

def Stmt.suitesAll : List Stmt → List Suite
  | [] => []
  | s :: ss => s.suites ++ Stmt.suitesAll ss

end

mutual

/-- The names and the code of the caller's that stand first in statements of the body, at any depth,
begin with code. -/
def Body.LeadsWithCode : Body → Prop
  | ⟨_, stmts⟩ => Stmt.AllLeadWithCode stmts

/-- The statements of the function lead with code. -/
def Function.LeadsWithCode : Function → Prop
  | ⟨_, body⟩ => body.LeadsWithCode

/-- The statements of the functions lead with code. -/
def Function.AllLeadWithCode : List Function → Prop
  | [] => True
  | f :: fs => f.LeadsWithCode ∧ Function.AllLeadWithCode fs

def Branches.LeadsWithCode : Branches → Prop
  | .done => True
  | .otherwise body => body.LeadsWithCode
  | .elseIf _ body rest => body.LeadsWithCode ∧ rest.LeadsWithCode

def Handlers.LeadsWithCode : Handlers → Prop
  | .done => True
  | .cleanup body => body.LeadsWithCode
  | .handler _ body rest => body.LeadsWithCode ∧ rest.LeadsWithCode

/-- The statement leads with code, and so do those in it and the properties of its class. -/
def Stmt.LeadsWithCode : Stmt → Prop
  | .plain p => p.LeadsWithCode
  | .conditional _ body branches => body.LeadsWithCode ∧ branches.LeadsWithCode
  | .forEach _ _ body | .forEntries _ _ _ body | .block body => body.LeadsWithCode
  | .attempt body handlers => body.LeadsWithCode ∧ handlers.LeadsWithCode
  | .function f => f.LeadsWithCode
  | .classDef c methods =>
    (∀ p ∈ c.properties, Text.StartsWithCode p.name) ∧ Function.AllLeadWithCode methods

/-- The statements lead with code. -/
def Stmt.AllLeadWithCode : List Stmt → Prop
  | [] => True
  | s :: ss => s.LeadsWithCode ∧ Stmt.AllLeadWithCode ss

end

/-! ## Lines of code -/

/-- A function writes a line of code: its head. -/
theorem Function.hasCodeLine_toPython {f : Function} {ls : List Layout} (h : f.toPython = .ok ls) :
    Layout.HasCodeLine ls := by
  obtain ⟨signature, body⟩ := f
  obtain ⟨_, -, h⟩ := bind_eq_ok.1 h
  obtain ⟨overloads, -, h⟩ := bind_eq_ok.1 h
  obtain ⟨head, hhead, h⟩ := bind_eq_ok.1 h
  obtain ⟨inner, -, h⟩ := bind_eq_ok.1 h
  cases pure_eq_ok.1 h
  have hline := Signature.hasCodeLine_pythonHead hhead
  exact Layout.hasCodeLine_append.2 (.inl (Layout.hasCodeLine_append.2 (.inr hline)))

theorem Function.eq_nil_or_hasCodeLine_toPythonAll {fs : List Function}
    {lss : List (List Layout)} (h : Function.toPythonAll fs = .ok lss) :
    lss.flatten = [] ∨ Layout.HasCodeLine lss.flatten := by
  cases fs with
  | nil =>
      cases h
      exact .inl rfl
  | cons f fs =>
      obtain ⟨here, hhere, h⟩ := bind_eq_ok.1 h
      obtain ⟨rest, -, h⟩ := bind_eq_ok.1 h
      cases pure_eq_ok.1 h
      exact .inr (Layout.hasCodeLine_append.2 (.inl (Function.hasCodeLine_toPython hhere)))

mutual

/-- A body writes a line of code if it has code, and only then. -/
theorem Body.hasCodeLine_iff : ∀ {b : Body}, b.LeadsWithCode → ∀ {ls : List Layout},
    b.toPython = .ok ls → (Layout.HasCodeLine ls ↔ b.hasCode = true)
  | ⟨_, stmts⟩, hlead, _, h => by
      have hall : Stmt.AllLeadWithCode stmts := hlead
      exact Stmt.hasCodeLine_iff_anyCode hall h

theorem Stmt.hasCodeLine_iff : ∀ {s : Stmt}, s.LeadsWithCode → ∀ {ls : List Layout},
    s.toPython = .ok ls → (Layout.HasCodeLine ls ↔ s.hasCode = true)
  | .plain p, hlead, ls, h => Plain.hasCodeLine_iff (p := p) hlead h
  | .block body, hlead, ls, h => Body.hasCodeLine_iff (b := body) hlead h
  | .function _, _, _, h => iff_of_true (Function.hasCodeLine_toPython h) rfl
  | .conditional test body branches, _, ls, h => by
      obtain ⟨t, -, h⟩ := bind_eq_ok.1 h
      obtain ⟨inner, -, h⟩ := bind_eq_ok.1 h
      obtain ⟨others, -, h⟩ := bind_eq_ok.1 h
      cases pure_eq_ok.1 h
      exact iff_of_true (.cons (.append (.append (by decide) _) _) _) rfl
  | .forEach name iterable body, _, ls, h => by
      obtain ⟨i, -, h⟩ := bind_eq_ok.1 h
      obtain ⟨inner, -, h⟩ := bind_eq_ok.1 h
      cases pure_eq_ok.1 h
      exact iff_of_true (.cons (.append (.append (.append (.append (by decide) _) _) _) _) _) rfl
  | .forEntries key value iterable body, _, ls, h => by
      obtain ⟨i, -, h⟩ := bind_eq_ok.1 h
      obtain ⟨inner, -, h⟩ := bind_eq_ok.1 h
      cases pure_eq_ok.1 h
      refine iff_of_true (.cons ?_ _) rfl
      cases key with
      | none => exact .append (.append (.append (.append (by decide) _) _) _) _
      | some key => exact .append (.append (.append (.append (.append (.append (by decide) _) _) _) _) _) _
  | .attempt body handlers, _, ls, h => by
      obtain ⟨_, -, h⟩ := bind_eq_ok.1 h
      obtain ⟨inner, -, h⟩ := bind_eq_ok.1 h
      obtain ⟨others, -, h⟩ := bind_eq_ok.1 h
      cases pure_eq_ok.1 h
      exact iff_of_true (.cons (by decide) _) rfl
  | .classDef c methods, _, ls, h => by
      obtain ⟨properties, -, h⟩ := bind_eq_ok.1 h
      obtain ⟨constructor, -, h⟩ := bind_eq_ok.1 h
      obtain ⟨ms, -, h⟩ := bind_eq_ok.1 h
      cases pure_eq_ok.1 h
      exact iff_of_true (Layout.hasCodeLine_append.2 (.inl c.hasCodeLine_pythonHead)) rfl

theorem Stmt.hasCodeLine_iff_anyCode : ∀ {ss : List Stmt}, Stmt.AllLeadWithCode ss →
    ∀ {ls : List Layout}, Stmt.toPythonAll ss = .ok ls →
      (Layout.HasCodeLine ls ↔ Stmt.anyCode ss = true)
  | [], _, ls, h => by
      cases h
      exact iff_of_false Layout.not_hasCodeLine_nil Bool.false_ne_true
  | s :: ss, ⟨hs, hss⟩, ls, h => by
      obtain ⟨here, hhere, h⟩ := bind_eq_ok.1 h
      obtain ⟨rest, hrest, h⟩ := bind_eq_ok.1 h
      cases pure_eq_ok.1 h
      rw [Layout.hasCodeLine_append, Stmt.hasCodeLine_iff hs hhere,
        Stmt.hasCodeLine_iff_anyCode hss hrest, Stmt.anyCode, Bool.or_eq_true]

end

theorem Body.hasCode_eq_true_iff (b : Body) : b.hasCode = true ↔ ¬ b.IsSilent := by
  rw [← b.codeCount_eq_zero_iff, ← b.hasCode_eq_false_iff, Bool.not_eq_false]

/-! ## Suites -/

/-- A body of a control structure is filled if its own suites are. -/
theorem Body.opens_pythonSuite {b : Body} (hlead : b.LeadsWithCode) {inner : List Layout}
    (hinner : b.toPython = .ok inner) (h : Layout.Opens Suite.IsFilled b.suites inner)
    {head : String} (hhead : (Layout.line head).opensSuite = true) :
    Layout.Opens Suite.IsFilled (.arm b :: b.suites)
      [.line head, Layout.pythonSuite b.hasCode inner] := by
  cases hcode : b.hasCode with
  | true =>
      have hline := (Body.hasCodeLine_iff hlead hinner).2 hcode
      exact .suite hhead ⟨hline, inner, hinner, .inr ⟨b.hasCode_eq_true_iff.1 hcode, rfl⟩⟩ h
  | false =>
      have hsilent : b.IsSilent := b.codeCount_eq_zero_iff.1 (b.hasCode_eq_false_iff.1 hcode)
      have hline : Layout.HasCodeLine (inner ++ [.line "pass"]) := .concat (by decide) inner
      exact .suite hhead ⟨hline, inner, hinner, .inl ⟨hsilent, rfl⟩⟩ (h.append_nil (.line _))

mutual

theorem Body.opens_toPython : ∀ {b : Body}, b.LeadsWithCode → ∀ {ls : List Layout},
    b.toPython = .ok ls → Layout.Opens Suite.IsFilled b.suites ls
  | ⟨_, stmts⟩, hlead, _, h => by
      have hall : Stmt.AllLeadWithCode stmts := hlead
      exact Stmt.opens_toPythonAll hall h

theorem Function.opens_toPython : ∀ {f : Function}, f.LeadsWithCode → ∀ {ls : List Layout},
    f.toPython = .ok ls → Layout.Opens Suite.IsFilled f.suites ls
  | ⟨signature, body⟩, hlead, ls, h => by
      obtain ⟨_, -, h⟩ := bind_eq_ok.1 h
      obtain ⟨overloads, hoverloads, h⟩ := bind_eq_ok.1 h
      obtain ⟨head, hhead, h⟩ := bind_eq_ok.1 h
      obtain ⟨inner, hinner, h⟩ := bind_eq_ok.1 h
      cases pure_eq_ok.1 h
      obtain ⟨suite, hsuite, hline, hopens⟩ := signature.exists_pythonSuite
        (Body.hasCodeLine_iff hlead hinner).2 (Body.opens_toPython (b := body) hlead hinner)
      rw [hsuite, List.append_assoc]
      exact (Signature.opens_pythonOverloads hoverloads).append
        (Signature.opens_pythonHead hhead hline hopens)

theorem Function.opens_toPythonAll : ∀ {fs : List Function}, Function.AllLeadWithCode fs →
    ∀ {lss : List (List Layout)}, Function.toPythonAll fs = .ok lss →
      Layout.Opens Suite.IsFilled (Function.suitesAll fs) lss.flatten
  | [], _, lss, h => by
      cases h
      exact .nil
  | f :: fs, ⟨hf, hfs⟩, lss, h => by
      obtain ⟨here, hhere, h⟩ := bind_eq_ok.1 h
      obtain ⟨rest, hrest, h⟩ := bind_eq_ok.1 h
      cases pure_eq_ok.1 h
      exact (Function.opens_toPython hf hhere).append (Function.opens_toPythonAll hfs hrest)

theorem Branches.opens_toPython : ∀ {bs : Branches}, bs.LeadsWithCode → ∀ {ls : List Layout},
    bs.toPython = .ok ls → Layout.Opens Suite.IsFilled bs.suites ls
  | .done, _, ls, h => by
      cases h
      exact .nil
  | .otherwise body, hlead, ls, h => by
      obtain ⟨inner, hinner, h⟩ := bind_eq_ok.1 h
      cases pure_eq_ok.1 h
      exact Body.opens_pythonSuite (b := body) hlead hinner (Body.opens_toPython hlead hinner)
        (by decide)
  | .elseIf test body rest, ⟨hbody, hrest⟩, ls, h => by
      obtain ⟨t, -, h⟩ := bind_eq_ok.1 h
      obtain ⟨inner, hinner, h⟩ := bind_eq_ok.1 h
      obtain ⟨others, hothers, h⟩ := bind_eq_ok.1 h
      cases pure_eq_ok.1 h
      exact (Body.opens_pythonSuite hbody hinner (Body.opens_toPython hbody hinner)
        (Layout.opensSuite_append_colon _)).append (Branches.opens_toPython hrest hothers)

theorem Handlers.opens_toPython : ∀ {hs : Handlers}, hs.LeadsWithCode → ∀ {ls : List Layout},
    hs.toPython = .ok ls → Layout.Opens Suite.IsFilled hs.suites ls
  | .done, _, ls, h => by
      cases h
      exact .nil
  | .cleanup body, hlead, ls, h => by
      obtain ⟨inner, hinner, h⟩ := bind_eq_ok.1 h
      cases pure_eq_ok.1 h
      exact Body.opens_pythonSuite (b := body) hlead hinner (Body.opens_toPython hlead hinner)
        (by decide)
  | .handler arm body rest, ⟨hbody, hrest⟩, ls, h => by
      obtain ⟨inner, hinner, h⟩ := bind_eq_ok.1 h
      obtain ⟨others, hothers, h⟩ := bind_eq_ok.1 h
      cases pure_eq_ok.1 h
      refine (Body.opens_pythonSuite hbody hinner (Body.opens_toPython hbody hinner) ?_).append
        (Handlers.opens_toPython hrest hothers)
      split <;> exact Layout.opensSuite_append_colon _

/-- The suites of a statement are filled. -/
theorem Stmt.opens_toPython : ∀ {s : Stmt}, s.LeadsWithCode → ∀ {ls : List Layout},
    s.toPython = .ok ls → Layout.Opens Suite.IsFilled s.suites ls
  | .plain p, hlead, ls, h => Plain.opens_toPython (p := p) hlead h
  | .conditional test body branches, ⟨hbody, hbranches⟩, ls, h => by
      obtain ⟨t, -, h⟩ := bind_eq_ok.1 h
      obtain ⟨inner, hinner, h⟩ := bind_eq_ok.1 h
      obtain ⟨others, hothers, h⟩ := bind_eq_ok.1 h
      cases pure_eq_ok.1 h
      exact (Body.opens_pythonSuite hbody hinner (Body.opens_toPython hbody hinner)
        (Layout.opensSuite_append_colon _)).append
        ((Branches.opens_toPython hbranches hothers).append_nil (.line ""))
  | .forEach name iterable body, hlead, ls, h => by
      obtain ⟨i, -, h⟩ := bind_eq_ok.1 h
      obtain ⟨inner, hinner, h⟩ := bind_eq_ok.1 h
      cases pure_eq_ok.1 h
      exact (Body.opens_pythonSuite (b := body) hlead hinner (Body.opens_toPython hlead hinner)
        (Layout.opensSuite_append_colon _)).append_nil (.line "")
  | .forEntries key value iterable body, hlead, ls, h => by
      obtain ⟨i, -, h⟩ := bind_eq_ok.1 h
      obtain ⟨inner, hinner, h⟩ := bind_eq_ok.1 h
      cases pure_eq_ok.1 h
      refine (Body.opens_pythonSuite (b := body) hlead hinner (Body.opens_toPython hlead hinner)
        ?_).append_nil (.line "")
      split <;> exact Layout.opensSuite_append _ (by decide)
  | .attempt body handlers, ⟨hbody, hhandlers⟩, ls, h => by
      obtain ⟨_, -, h⟩ := bind_eq_ok.1 h
      obtain ⟨inner, hinner, h⟩ := bind_eq_ok.1 h
      obtain ⟨others, hothers, h⟩ := bind_eq_ok.1 h
      cases pure_eq_ok.1 h
      exact (Body.opens_pythonSuite hbody hinner (Body.opens_toPython hbody hinner)
        (by decide)).append (Handlers.opens_toPython hhandlers hothers)
  | .function f, hlead, ls, h => Function.opens_toPython (f := f) hlead h
  | .classDef c methods, ⟨hnames, hmethods⟩, ls, h => by
      obtain ⟨properties, hproperties, h⟩ := bind_eq_ok.1 h
      obtain ⟨constructor, hconstructor, h⟩ := bind_eq_ok.1 h
      obtain ⟨ms, hms, h⟩ := bind_eq_ok.1 h
      cases pure_eq_ok.1 h
      obtain ⟨hproperties, hproperties'⟩ := Class.opens_pythonProperties hnames hproperties
      obtain ⟨hconstructor, hconstructor'⟩ := Class.opens_pythonConstructor hconstructor
      have hmembers := (((Layout.opens_docString c.docstring).append hproperties).append
        hconstructor).append (Function.opens_toPythonAll hmethods hms)
      have hmembers' := Layout.eq_nil_or_hasCodeLine_append (Layout.eq_nil_or_hasCodeLine_append
        (Layout.eq_nil_or_hasCodeLine_append
          (Layout.docString_eq_nil_or_hasCodeLine c.docstring) hproperties') hconstructor')
        (Function.eq_nil_or_hasCodeLine_toPythonAll hms)
      have hsuite := c.opens_suite hmembers hmembers' c.remarks
      rw [List.append_assoc c.pythonHead] at hsuite
      exact hsuite
  | .block body, hlead, ls, h => Body.opens_toPython (b := body) hlead h

theorem Stmt.opens_toPythonAll : ∀ {ss : List Stmt}, Stmt.AllLeadWithCode ss →
    ∀ {ls : List Layout}, Stmt.toPythonAll ss = .ok ls →
      Layout.Opens Suite.IsFilled (Stmt.suitesAll ss) ls
  | [], _, ls, h => by
      cases h
      exact .nil
  | s :: ss, ⟨hs, hss⟩, ls, h => by
      obtain ⟨here, hhere, h⟩ := bind_eq_ok.1 h
      obtain ⟨rest, hrest, h⟩ := bind_eq_ok.1 h
      cases pure_eq_ok.1 h
      exact (Stmt.opens_toPython hs hhere).append (Stmt.opens_toPythonAll hss hrest)

end

/-- **Suites in Python are never empty.** If names and code of the caller's begin with code, the
suites in a written body are those of its tree, each with a line of code at its own depth, and with
`pass` behind a body without statements that are code. -/
theorem Body.suites_filled {b : Body} (hlead : b.LeadsWithCode) {ls : List Layout}
    (h : b.toPython = .ok ls) :
    List.Forall₂ Suite.IsFilled b.suites (Layout.suitesAll false ls) ∧
      (∀ suite ∈ Layout.suitesAll false ls, ∀ (indent : String) (depth : Nat),
        '\n' ∉ indent.toList → ∃ l, Text.isCodeLine l = true ∧
          Text.times depth indent ++ l ∈ Text.lines (Layout.writeAll indent depth suite)) ∧
      (b.codeCount = 0 ↔ b.IsSilent) ∧ (b.IsSilent ↔ ¬ Layout.HasCodeLine ls) := by
  have hopens := Body.opens_toPython hlead h
  refine ⟨hopens false, fun suite hsuite indent depth hindent => ?_, b.codeCount_eq_zero_iff, ?_⟩
  · exact (Suite.hasCodeLine_of_mem (hopens false) suite hsuite).exists_mem_lines hindent depth
  · rw [Body.hasCodeLine_iff hlead h, b.hasCode_eq_true_iff, not_not]

/-- Suites of every kind, most of them with nothing to do. -/
def Body.idle : Body where
  imports := []
  stmts := [
    .plain (.build ⟨"options", .num, [⟨"size", .var "size" none, true⟩]⟩),
    .conditional (.var "ready" none) ⟨[], [.plain (.comment "nothing yet")]⟩
      (.elseIf (.var "late" none)
        ⟨[], [.block ⟨[], [.plain .blank, .plain (.snippet ⟨.omitted, .code "f();", .missing⟩)]⟩]⟩
        (.otherwise ⟨[], [.block ⟨[], [.plain (.snippet ⟨.code "stop()", .missing, .missing⟩)]⟩]⟩)),
    .forEach "item" (.var "items" none) ⟨[], []⟩,
    .forEntries (some "key") "value" (.var "table" none) ⟨[], [.plain .blank]⟩,
    .attempt ⟨[], [.plain (.ret .null)]⟩
      (.handler ⟨none, ⟨some "KeyError", none, none⟩⟩ ⟨[], []⟩
        (.cleanup ⟨[], [.plain (.expr (.call "close" false [] []))]⟩)),
    .function ⟨{ Signature.function "load" none with
        overloads := [⟨[], some .num⟩]
        docstring := ["Loads nothing."] }, ⟨[], [.plain (.comment "later")]⟩⟩,
    .classDef { Class.new "Shape" with remarks := ["empty"] } [],
    .classDef { Class.new "Square" with properties := [⟨"side", .num, none, true, false, false⟩] }
      [⟨{ Signature.method "area" (some .num) with isAbstract := true }, ⟨[], []⟩⟩]]

theorem Body.suites_filled_idle : idle.LeadsWithCode ∧ idle.suites.length = 15 ∧
    ∃ ls, idle.toPython = .ok ls ∧
      List.Forall₂ Suite.IsFilled idle.suites (Layout.suitesAll false ls) ∧
      ¬ idle.IsSilent ∧ Layout.HasCodeLine ls := by
  have hstop : (Plain.snippet ⟨.code "stop()", .missing, .missing⟩).LeadsWithCode := by
    rintro text ⟨⟩
    decide
  have homitted : (Plain.snippet ⟨.omitted, .code "f();", .missing⟩).LeadsWithCode := nofun
  have hclose : Text.StartsWithCode "close" := .of_isIdentifier (by decide)
  have hoptions : Text.StartsWithCode "options" := .of_isIdentifier (by decide)
  have hside : ∀ p ∈ [(⟨"side", .num, none, true, false, false⟩ : Property)],
      Text.StartsWithCode p.name := by
    rintro p (_ | ⟨_, ⟨⟩⟩)
    exact .of_isIdentifier (by decide)
  have hlead : idle.LeadsWithCode :=
    ⟨hoptions, ⟨⟨trivial, trivial⟩, ⟨⟨trivial, homitted, trivial⟩, trivial⟩,
      ⟨⟨hstop, trivial⟩, trivial⟩⟩, trivial, ⟨trivial, trivial⟩,
      ⟨⟨trivial, trivial⟩, trivial, hclose, trivial⟩, ⟨trivial, trivial⟩, ⟨nofun, trivial⟩,
      ⟨hside, trivial, trivial⟩, trivial⟩
  obtain ⟨ls, hls⟩ : ∃ ls, idle.toPython = .ok ls := ⟨_, rfl⟩
  obtain ⟨hfilled, -, -, hcode⟩ := suites_filled hlead hls
  have hsilent : ¬ idle.IsSilent := by
    rw [← codeCount_eq_zero_iff]
    decide
  exact ⟨hlead, rfl, ls, hls, hfilled, hsilent, not_not.1 (mt hcode.2 hsilent)⟩

end Polyglot
