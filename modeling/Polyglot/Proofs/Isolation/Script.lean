import Polyglot.Proofs.Isolation.Stmt
import Polyglot.Proofs.Writer.Script
import Polyglot.Script.Output

/-!
# Isolation of output languages

A script written in one language depends on nothing that is meant for another language: two scripts
of which the language sees the same are written as the same text, or fail with the same error.

* `Script.seenBy`, `Options.seenBy` : what a language sees of a script and of the options.
* `Script.write_seenBy` : a script is written from what the language sees of it.
* `Script.write_eq_of_seenBy_eq` : two scripts of which a language sees the same.
-/

set_option autoImplicit false

namespace Polyglot

open Outcome

/-- What one language sees of a named type; TypeScript alone exports it. -/
def Alias.seenBy (t : Target) (a : Alias) : Alias where
  name := a.name
  base := a.base.seenBy t
  isExported := if t = .typescript then a.isExported else false

/-- What one language sees of a script. -/
def Script.seenBy (t : Target) (s : Script) : Script where
  body := s.body.seenBy t
  comments := s.comments
  aliases := s.aliases.map (Alias.seenBy t)

/-- What one language sees of the options; PHP alone has a namespace. -/
def Options.seenBy (t : Target) (o : Options) : Options where
  indent := o.indent
  pretty := o.pretty
  phpNamespace := if t = .php then o.phpNamespace else none

namespace Script

theorem aliasImports_seenBy (t : Target) (s : Script) :
    (s.seenBy t).aliasImports t = s.aliasImports t := by
  cases t with
  | python =>
      rw [aliasImports, seenBy, List.isEmpty_map, aliasImports]
      simp only [List.flatMap_map, Alias.seenBy, Ty.imports_seenBy]
  | typescript =>
      rw [aliasImports, seenBy, aliasImports]
      simp only [List.flatMap_map, Alias.seenBy, Ty.imports_seenBy]
  | php => rfl

/-- What a language sees of a script needs the same imports. -/
theorem imports_seenBy (t : Target) (s : Script) : (s.seenBy t).imports t = s.imports t := by
  rw [imports, aliasImports_seenBy, seenBy, Body.needs_seenBy, imports]

theorem pythonAlias_seenBy (a : Alias) : pythonAlias (a.seenBy .python) = pythonAlias a := by
  rw [pythonAlias, Alias.seenBy, Ty.pythonText_seenBy, pythonAlias]

theorem typeScriptAlias_seenBy (a : Alias) :
    typeScriptAlias (a.seenBy .typescript) = typeScriptAlias a := by
  rw [typeScriptAlias, Alias.seenBy, Ty.toTypeScript_seenBy, typeScriptAlias]
  rfl

theorem layout_seenBy (t : Target) (s : Script) (o : Options) :
    (s.seenBy t).layout t (o.seenBy t) = s.layout t o := by
  cases t with
  | python =>
      rw [layout, toPython, imports_seenBy, seenBy, mapM_map_of_eq pythonAlias_seenBy,
        Body.toPython_seenBy, layout, toPython]
  | typescript =>
      rw [layout, toTypeScript, imports_seenBy, seenBy, mapM_map_of_eq typeScriptAlias_seenBy,
        Body.toTypeScript_seenBy, layout, toTypeScript]
  | php =>
      have hbody : (s.seenBy .php).body.toPhp = s.body.toPhp := Body.toPhp_seenBy s.body
      show (s.seenBy .php).toPhp o.phpNamespace = s.toPhp o.phpNamespace
      simp only [toPhp, imports_seenBy, hbody]
      rfl

/-- A script is written from what the language sees of it and of the options. -/
theorem write_seenBy (t : Target) (s : Script) (o : Options) :
    (s.seenBy t).write t (o.seenBy t) = s.write t o := by
  rw [write_eq, layout_seenBy, write_eq]
  rfl

/-- **Target isolation.** Two scripts and options of which a language sees the same are written in
it with the same result, be it a text or an error. -/
theorem write_eq_of_seenBy_eq {t : Target} {s₁ s₂ : Script} {o₁ o₂ : Options}
    (hs : s₁.seenBy t = s₂.seenBy t) (ho : o₁.seenBy t = o₂.seenBy t) :
    s₁.write t o₁ = s₂.write t o₂ ∧ s₁.source t o₁ = s₂.source t o₂ := by
  have hwrite : s₁.write t o₁ = s₂.write t o₂ := by
    rw [← write_seenBy t s₁ o₁, hs, ho, write_seenBy]
  have hpretty : o₁.pretty = o₂.pretty := by
    have h : (o₁.seenBy t).pretty = (o₂.seenBy t).pretty := by rw [ho]
    exact h
  refine ⟨hwrite, ?_⟩
  rw [source, source, hpretty, hwrite]

/-- A class and some code whose TypeScript and PHP sides can be chosen. -/
def squareWith (parent code : String) : Script where
  body := ⟨[(.typescript, .named parent "Shape")],
    [.classDef
      { Class.new "Square" with
        isExported := code = ""
        pythonBases := ["Shape"]
        typeScriptParent := some parent
        phpParent := some parent
        properties := [⟨"side", .custom ⟨some "Length", some parent, none, []⟩,
          some (.perTarget ⟨some ⟨"one()", .access⟩, some ⟨code, .sum⟩, none⟩),
          false, true, true⟩] }
      [],
     .plain (.snippet ⟨.code "register(Square)", .code code, .missing⟩)]⟩
  comments := []
  aliases := [⟨"Side", .num, code = ""⟩]

theorem squareWith_write_eq :
    (squareWith "Base" "").seenBy .python = (squareWith "Figure" "f();").seenBy .python ∧
      (squareWith "Base" "").write .python .default =
        (squareWith "Figure" "f();").write .python
          { Options.default with phpNamespace := some "Figures" } := by
  have hs : (squareWith "Base" "").seenBy .python = (squareWith "Figure" "f();").seenBy .python :=
    rfl
  have ho : Options.default.seenBy .python =
      Options.seenBy .python { Options.default with phpNamespace := some "Figures" } := rfl
  exact ⟨hs, (write_eq_of_seenBy_eq hs ho).1⟩

end Script

end Polyglot
