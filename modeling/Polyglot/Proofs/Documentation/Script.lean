import Polyglot.Proofs.Documentation.Block
import Polyglot.Proofs.Script.Around

/-!
# Documentations in scripts

The documentation of a function, a class or a method stands at a fixed place of the file, and so
does that of a Python module. What follows it is read as code from the first closing text on.

* `Script.DocPlace` : a place for a documentation.
* `Script.DocPlace.write_documentation` : **what is written for a documentation, and how far it is
  read.**
-/

set_option autoImplicit false

namespace Polyglot

open Outcome Text

/-- The texts of a documentation that is there. -/
abbrev DocTexts := { texts : List String // texts ≠ [] }

/-- The function with a documentation. -/
def Function.documented (f : Function) (texts : List String) : Function :=
  ⟨{ f.signature with docstring := texts }, f.body⟩

/-- The class with a documentation. -/
def Class.documented (c : Class) (texts : List String) : Class := { c with docstring := texts }

/-- The lines of a documentation in one language, for any texts that there are. -/
def Layout.docLines (t : Target) (texts : DocTexts) : List Layout := documentation texts.1 t

/-- How much deeper a documentation stands than the first line of what is documented. -/
def Target.docDepth : Target → Nat
  | .python => 1
  | .typescript | .php => 0

/-! ## Functions -/

namespace Function

/-- What a function needs in scope does not depend on its documentation. -/
theorem imports_documented (f : Function) (t : Target) (texts : List String) :
    (f.documented texts).imports t = f.imports t := by
  obtain ⟨signature, body⟩ := f
  rfl

/-- A function in which the documentation is left open. -/
theorem uniform_documented_toPython (f : Function) :
    Uniform (Layout.HasAt (Layout.docLines .python) 1) fun texts : DocTexts =>
      (f.documented texts.1).toPython := by
  obtain ⟨signature, body⟩ := f
  have hkept := Layout.kept_hasAt (Layout.docLines .python)
  have hlayout (texts : DocTexts) : ((mk signature body).documented texts.1).toPython = (do
      signature.checkBody body.stmts.isEmpty
      let overloads ← signature.pythonOverloads
      let head ← signature.pythonHead
      let inner ← body.toPython
      let last := if signature.isAbstract then [.line "..."]
        else if body.hasCode then [] else [.line "pass"]
      return overloads ++ head ++ [.nest (Layout.docLines .python texts ++ inner ++ last)]) := rfl
  simp only [hlayout]
  exact .const_bind _ fun _ => .const_bind _ fun overloads => .const_bind _ fun head =>
    .const_bind _ fun inner => .pure <| hkept.append_left (hkept.nest
      (hkept.append_right (hkept.append_right (.self _) _) _)) _

theorem uniform_documented_toTypeScript (f : Function) :
    Uniform (Layout.HasAt (Layout.docLines .typescript) 0) fun texts : DocTexts =>
      (f.documented texts.1).toTypeScript := by
  obtain ⟨σ, body⟩ := f
  have hkept := Layout.kept_hasAt (Layout.docLines .typescript)
  have hhead (texts : DocTexts) : ({ σ with docstring := texts.1 } : Signature).typeScriptHead = (do
      σ.checkTypeScript
      let params ← σ.positional.mapM Param.toTypeScript
      let result ← σ.typeScriptResult
      return Layout.docLines .typescript texts ++
        σ.typeScriptDecorators.map (fun d => .line ("@" ++ d)) ++
        [.line (" ".intercalate σ.typeScriptModifiers ++ " " ++
            (if σ.isConstructor then "constructor" else σ.name) ++ "("), .nest params,
          .line (")" ++ result ++ (if σ.isAbstract then ";" else " \x7b"))]) := rfl
  have hlayout (texts : DocTexts) : ((mk σ body).documented texts.1).toTypeScript = (do
      σ.checkBody body.stmts.isEmpty
      let head ← ({ σ with docstring := texts.1 } : Signature).typeScriptHead
      let inner ← body.toTypeScript
      return head ++ σ.bracedBody inner) := rfl
  simp only [hlayout, hhead]
  refine .const_bind _ fun _ => .bind (P := Layout.HasAt (Layout.docLines .typescript) 0) ?_
    fun head hhead => .const_bind _ fun inner => .pure (hkept.append_right hhead _)
  exact .const_bind _ fun _ => .const_bind _ fun params => .const_bind _ fun result =>
    .pure (hkept.append_right (hkept.append_right (.self _) _) _)

theorem uniform_documented_toPhp (f : Function) :
    Uniform (Layout.HasAt (Layout.docLines .php) 0) fun texts : DocTexts =>
      (f.documented texts.1).toPhp := by
  obtain ⟨σ, body⟩ := f
  have hkept := Layout.kept_hasAt (Layout.docLines .php)
  have hhead (texts : DocTexts) : ({ σ with docstring := texts.1 } : Signature).phpHead = (do
      σ.checkPhp
      let params ← σ.positional.mapM Param.toPhp
      let result ← σ.phpResult
      return Layout.docLines .php texts ++
        [.line (" ".intercalate σ.phpModifiers ++ " " ++
            (if σ.isConstructor then "__construct" else σ.name) ++ "("),
          .nest (Layout.phpParams params),
          .line (")" ++ result ++ (if σ.isAbstract then ";" else " \x7b"))]) := rfl
  have hlayout (texts : DocTexts) : ((mk σ body).documented texts.1).toPhp = (do
      σ.checkBody body.stmts.isEmpty
      let head ← ({ σ with docstring := texts.1 } : Signature).phpHead
      let inner ← body.toPhp
      return head ++ σ.bracedBody inner) := rfl
  simp only [hlayout, hhead]
  refine .const_bind _ fun _ => .bind (P := Layout.HasAt (Layout.docLines .php) 0) ?_
    fun head hhead => .const_bind _ fun inner => .pure (hkept.append_right hhead _)
  exact .const_bind _ fun _ => .const_bind _ fun params => .const_bind _ fun result =>
    .pure (hkept.append_right (.self _) _)

end Function

/-! ## Statements -/

namespace Stmt

/-- A function as a statement in which the documentation is left open. -/
theorem uniform_documented_function (t : Target) (f : Function) :
    Uniform (Layout.HasAt (Layout.docLines t) t.docDepth) fun texts : DocTexts =>
      (function (f.documented texts.1)).layout t := by
  cases t with
  | python => exact f.uniform_documented_toPython
  | typescript => exact f.uniform_documented_toTypeScript
  | php => exact f.uniform_documented_toPhp

/-- A class with a method in which the documentation is left open. -/
theorem uniform_documented_method (t : Target) (c : Class) (before : List Function) (f : Function)
    (after : List Function) :
    Uniform (Layout.HasAt (Layout.docLines t) (t.docDepth + 1)) fun texts : DocTexts =>
      (classDef c (before ++ f.documented texts.1 :: after)).layout t := by
  have hkept := Layout.kept_hasAt (Layout.docLines t)
  cases t with
  | python => exact uniform_method_toPython hkept f.uniform_documented_toPython c before after
  | typescript =>
      exact uniform_method_toTypeScript hkept f.uniform_documented_toTypeScript c before after
  | php => exact uniform_method_toPhp hkept f.uniform_documented_toPhp c before after

/-- A class in which the documentation is left open. In Python the documentation is a member, so
there is nothing to fill up. -/
theorem uniform_documented_class (t : Target) (c : Class) (methods : List Function) :
    Uniform (Layout.HasAt (Layout.docLines t) t.docDepth) fun texts : DocTexts =>
      (classDef (c.documented texts.1) methods).layout t := by
  have hkept := Layout.kept_hasAt (Layout.docLines t)
  cases t with
  | python =>
      have hlayout (texts : DocTexts) :
          (classDef (c.documented texts.1) methods).layout .python = (do
            let properties ← c.pythonProperties
            let constructor ← c.pythonConstructor
            let ms ← Function.toPythonAll methods
            return c.pythonHead ++ [.nest (Layout.docLines .python texts ++ properties ++
              constructor ++ ms.flatten ++ (c.remarks.map fun r => .line ("# " ++ r)) ++ []),
              .blank]) := by
        have hmembers (ls : List Layout) :
            (Layout.docString texts.1 ++ ls).isEmpty = false := by
          simp [Layout.docString, texts.2]
        simp only [layout, toPython, Class.documented, List.append_assoc, hmembers,
          Bool.false_eq_true, if_false]
        rfl
      simp only [hlayout]
      exact .const_bind _ fun properties => .const_bind _ fun constructor =>
        .const_bind _ fun ms => .pure <| hkept.append_left (hkept.append_right (hkept.nest
          (hkept.append_right (hkept.append_right (hkept.append_right (hkept.append_right
            (hkept.append_right (.self _) _) _) _) _) _)) [.blank]) c.pythonHead
  | typescript =>
      have hlayout (texts : DocTexts) :
          (classDef (c.documented texts.1) methods).layout .typescript = (do
            let properties ← c.properties.mapM Class.typeScriptProperty
            let constructor ← c.typeScriptConstructor
            let ms ← Function.toTypeScriptAll methods
            let members := Layout.spaced (!c.properties.isEmpty) (constructor ++ ms)
            let remarks := c.remarks.map fun r => .line ("// " ++ r)
            return Layout.docLines .typescript texts ++ [.line c.typeScriptHead,
              .nest (properties.flatten ++ members ++ remarks), .line "\x7d"]) := rfl
      simp only [hlayout]
      exact .const_bind _ fun properties => .const_bind _ fun constructor =>
        .const_bind _ fun ms => .pure (hkept.append_right (.self _) _)
  | php =>
      have hlayout (texts : DocTexts) :
          (classDef (c.documented texts.1) methods).layout .php = (do
            let properties ← c.properties.mapM Class.phpProperty
            let constructor ← c.phpConstructor
            let ms ← Function.toPhpAll methods
            let members := Layout.spaced (!c.properties.isEmpty) (constructor ++ ms)
            let remarks := c.remarks.map fun r => .line ("// " ++ r)
            return Layout.docLines .php texts ++ [.line c.phpHead,
              .nest (properties.flatten ++ members ++ remarks), .line "\x7d"]) := rfl
      simp only [hlayout]
      exact .const_bind _ fun properties => .const_bind _ fun constructor =>
        .const_bind _ fun ms => .pure (hkept.append_right (.self _) _)

end Stmt

/-! ## Scripts -/

namespace Script

/-- A place for a documentation in a script. -/
inductive DocPlace where
  | module
  | function (around : Body.Layer) (layers : List Stmt.Layer) (f : Function)
  | classDef (around : Body.Layer) (layers : List Stmt.Layer) (c : Class) (methods : List Function)
  | method (around : Body.Layer) (layers : List Stmt.Layer) (c : Class) (before : List Function)
      (f : Function) (after : List Function)

namespace DocPlace

/-- The script with the documentation at the place. -/
def fill (s : Script) (texts : List String) : DocPlace → Script
  | .module => { s with comments := texts }
  | .function around layers f => s.within around layers (.function (f.documented texts))
  | .classDef around layers c methods =>
    s.within around layers (.classDef (c.documented texts) methods)
  | .method around layers c before f after =>
    s.within around layers (.classDef c (before ++ f.documented texts :: after))

/-- Whether the texts are written as a documentation. The texts at the head of a file are one in
Python only. -/
def IsDocumentation (t : Target) : DocPlace → Prop
  | .module => t = .python
  | .function .. | .classDef .. | .method .. => True

/-- What a class needs in scope does not depend on the documentation of a method. -/
theorem imports_method (t : Target) (c : Class) (before : List Function) (f : Function)
    (after : List Function) (texts : List String) :
    (Stmt.classDef c (before ++ f.documented texts :: after)).imports t =
      (Stmt.classDef c (before ++ f :: after)).imports t := by
  simp only [Stmt.imports, Function.importsAll_append, Function.importsAll,
    Function.imports_documented]

/-- The file around a documentation. -/
theorem write_around (place : DocPlace) {t : Target} (ht : place.IsDocumentation t) (s : Script)
    (o : Options) :
    (∃ e, ∀ texts : DocTexts, (place.fill s texts.1).write t o = .error e) ∨
    ∃ depth before after, IsClosed before ∧ ∀ texts : DocTexts,
      (place.fill s texts.1).write t o = .ok (before ++
        Layout.writeAll o.indent depth (Layout.docLines t texts) ++ after) := by
  cases place with
  | module =>
      cases ht
      have hlayout (texts : DocTexts) : (fill s texts.1 .module).layout .python o = (do
          let needs ← s.imports .python
          let aliases ← s.aliases.mapM pythonAlias
          let body ← s.body.toPython
          return Layout.docLines .python texts ++ pythonImports (ImportGroups.empty.addAll needs) ++
            paragraph aliases ++ body) := rfl
      have hkept := Layout.kept_hasAt (Layout.docLines .python)
      have huniform : Uniform (Layout.HasAt (Layout.docLines .python) 0) fun texts : DocTexts =>
          (fill s texts.1 .module).layout .python o := by
        simp only [hlayout]
        exact .const_bind _ fun needs => .const_bind _ fun aliases => .const_bind _ fun body =>
          .pure (hkept.append_right (hkept.append_right (hkept.append_right (.self _) _) _) _)
      exact write_of_uniform huniform
  | function around layers f =>
      exact write_within (.function f) (Stmt.uniform_documented_function t f) (fun _ => rfl)
        (fun texts => f.imports_documented t texts.1) s around layers o
  | classDef around layers c methods =>
      exact write_within (.classDef c methods) (Stmt.uniform_documented_class t c methods)
        (fun _ => rfl) (fun _ => rfl) s around layers o
  | method around layers c before f after =>
      exact write_within (.classDef c (before ++ f :: after))
        (Stmt.uniform_documented_method t c before f after) (fun _ => rfl)
        (fun texts => imports_method t c before f after texts.1) s around layers o

/-- **What is written for a documentation, and how far it is read.** Either there is no file,
whatever the texts are, or the documentation stands at a fixed place of the file, between its
opening and its closing text. The closing text stands at its end only just if it stands in none of
the texts, and then a reader behind the opening text reads up to that end. -/
theorem write_documentation (place : DocPlace) (s : Script) (t : Target) (o : Options)
    (ht : place.IsDocumentation t) (hmark : t.docMark ∉ o.indent.toList)
    (hescape : '\\' ∉ o.indent.toList) :
    (∃ e, ∀ texts, texts ≠ [] → (place.fill s texts).write t o = .error e) ∨
    ∃ depth before after, IsClosed before ∧ ∀ texts, texts ≠ [] →
      ∃ inner, inner = t.docInner (times depth o.indent) texts ∧
        (place.fill s texts).write t o = .ok (before ++ (times depth o.indent ++ t.docOpen ++
          inner ++ t.docClose ++ "\n") ++ after) ∧
        (OnlyAtEnd t.docClose (inner ++ t.docClose) ↔ ∀ text ∈ texts, ¬ StandsIn t.docClose text) ∧
        ((∀ text ∈ texts, ¬ StandsIn t.docClose text) →
          readTo (t = .python) t.docClose.toList false
            (inner ++ t.docClose ++ ("\n" ++ after)).toList =
              some (inner.toList, ("\n" ++ after).toList)) := by
  rcases place.write_around ht s o with ⟨e, he⟩ | ⟨depth, before, after, hclosed, hwritten⟩
  · exact .inl ⟨e, fun texts hne => he ⟨texts, hne⟩⟩
  · refine .inr ⟨depth, before, after, hclosed, fun texts hne => ⟨_, rfl, ?_, ?_, fun h => ?_⟩⟩
    · rw [hwritten ⟨texts, hne⟩, Layout.docLines,
        Layout.writeAll_documentation o.indent depth t hne]
    · exact Target.onlyAtEnd_docInner (not_mem_times hmark depth)
    · exact Target.readTo_docInner (not_mem_times hmark depth) (not_mem_times hescape depth) h _

/-- The documentation of a method in PHP is read to its end: a text can open one more and write of
ends that are not there. -/
theorem write_documentation_of_method :
    let place : DocPlace := .method ⟨[], [], []⟩ [] (.new "Pet") [] ⟨.method "feed" none, .empty⟩ []
    ∃ depth inner before after, (place.fill .empty ["/* reads", "a * / b"]).write .php .default =
        .ok (before ++ (times depth "    " ++ "/**" ++ inner ++ "*/" ++ "\n") ++ after) ∧
      OnlyAtEnd "*/" (inner ++ "*/") ∧
      readTo false ['*', '/'] false (inner ++ "*/" ++ ("\n" ++ after)).toList =
        some (inner.toList, ("\n" ++ after).toList) := by
  intro place
  have htext : ∃ text, (place.fill .empty ["/* reads", "a * / b"]).write .php .default = .ok text :=
    ⟨"<?php\n\nclass Pet \x7b\n    /**\n     * /* reads\n     * a * / b\n     */\n" ++
      "    public function feed(\n    ) \x7b\n    \x7d\n\x7d\n", (write_eq _ _ _).trans rfl⟩
  rcases place.write_documentation .empty .php .default trivial (by decide) (by decide) with
    ⟨e, he⟩ | ⟨depth, before, after, -, hall⟩
  · obtain ⟨text, htext⟩ := htext
    rw [he _ (List.cons_ne_nil _ _)] at htext
    cases htext
  · obtain ⟨inner, -, hwritten, honly, hread⟩ := hall ["/* reads", "a * / b"] (by decide)
    have hfree : ∀ text ∈ ["/* reads", "a * / b"], ¬ StandsIn (Target.docClose .php) text := by
      decide +kernel
    exact ⟨depth, inner, before, after, hwritten, honly.2 hfree, hread hfree⟩

/-- A text that closes the documentation in which it stands: what is behind it in the text is read
as code. -/
theorem write_documentation_of_closing_text :
    let place : DocPlace := .function ⟨[], [], []⟩ [] ⟨.function "feed" none, .empty⟩
    (place.fill .empty ["one */ feed();"]).write .typescript .default =
        .ok ("/**" ++ "\n * one */ feed();\n */\nfunction feed(\n): void \x7b\n\x7d\n") ∧
    readTo false ['*', '/'] false
        "\n * one */ feed();\n */\nfunction feed(\n): void \x7b\n\x7d\n".toList =
      some ("\n * one ".toList, " feed();\n */\nfunction feed(\n): void \x7b\n\x7d\n".toList) ∧
    (place.fill .empty ["one */ feed();"]).write .php .default =
        .ok ("<?php\n\n/**" ++ "\n * one */ feed();\n */\nfunction feed(\n) \x7b\n\x7d\n") ∧
    ¬ OnlyAtEnd "*/" "\n * one */ feed();\n */" ∧
    (place.fill .empty ["one \"\"\" + feed()"]).write .python .default =
        .ok ("\ndef feed(\n) -> None:\n    \"\"\"" ++
          "\n    one \"\"\" + feed()\n    \"\"\"\n    pass\n") ∧
    readTo true ['"', '"', '"'] false "\n    one \"\"\" + feed()\n    \"\"\"\n    pass\n".toList =
      some ("\n    one ".toList, " + feed()\n    \"\"\"\n    pass\n".toList) ∧
    (DocPlace.module.fill .empty ["one \"\"\" + feed()"]).write .python .default =
        .ok ("\"\"\"" ++ "\none \"\"\" + feed()\n\"\"\"\n") := by
  refine ⟨(write_eq _ _ _).trans rfl, by decide, (write_eq _ _ _).trans rfl, fun h => ?_,
    (write_eq _ _ _).trans rfl, by decide, (write_eq _ _ _).trans rfl⟩
  exact absurd (h "\n * one " " feed();\n */" (by decide)) (by decide)

end DocPlace

end Script

end Polyglot
