import Polyglot.Proofs.Comments.Line
import Polyglot.Proofs.Script.Around

/-!
# Comments in scripts

A caller gives the text of a comment as a statement, as a remark in a class, or at the head of a
file. Wherever that is, the file around the lines of the comment does not depend on the text. The
comment of a statement has a mark in front of every line; the others have one in front of the first
line only.

* `Script.CommentPlace` : a place for the text, and the lines that are written for it.
* `Script.CommentPlace.write_comment` : **what is written for the text of a comment.**
-/

set_option autoImplicit false

namespace Polyglot

open Outcome Text

/-! ## Lines -/

theorem Text.isLine_trimEnd {s : String} (h : IsLine s) : IsLine (trimEnd s) := by
  intro hmem
  rw [trimEnd, String.toList_ofList] at hmem
  exact h (mem_of_mem_dropBlankEnd hmem)

namespace Layout

/-- The lines of a text on one line of the layout. -/
theorem writeAll_line (indent : String) (depth : Nat) (text : String) :
    writeAll indent depth [.line text] =
      String.join ((lines text).map (indented indent depth)) := by
  rw [writeAll, writeAll_nil, String.append_empty]
  rfl

/-- The quotes around a documentation, and what is behind them. -/
theorem writeAll_quotes (indent : String) (ls : List Layout) :
    writeAll indent 0 (.line "\"\"\"" :: ls) = "\"\"\"\n" ++ writeAll indent 0 ls := rfl

/-- The comment of a statement: each of its lines is a line of the file. -/
theorem writeAll_marked (indent : String) (depth : Nat) {mark : String} (hmark : IsLine mark)
    (text : String) : writeAll indent depth (marked mark text) = String.join
      (((lines text).map fun l => trimEnd (mark ++ l)).map (indented indent depth)) := by
  have hlines : ∀ l ∈ lines text, IsLine l := fun l hl => newline_not_mem_of_mem_lines hl
  rw [marked]
  generalize lines text = ls at hlines
  induction ls with
  | nil => rfl
  | cons l ls ih =>
      obtain ⟨hl, hls⟩ := List.forall_mem_cons.1 hlines
      have hline : lines (trimEnd (mark ++ l)) = [trimEnd (mark ++ l)] :=
        lines_eq_singleton (isLine_trimEnd (isLine_append.2 ⟨hmark, hl⟩))
      rw [List.map_cons, List.map_cons, List.map_cons, String.join_cons, writeAll, ih hls, write,
        hline]
      simp

end Layout

/-! ## Places -/

namespace Script

/-- What is written for a text at the head of a file. In Python it stands in the documentation of
the module. -/
def headComment (text : String) : Target → String
  | .python => text
  | .typescript => trimEnd ("// " ++ text)
  | .php => trimEnd ("// " ++ text)

/-- A place for the text of a comment in a script: among the comments at the head of the file, in a
statement, or among the remarks in a class. -/
inductive CommentPlace where
  | file (before after : List String)
  | statement (around : Body.Layer) (layers : List Stmt.Layer)
  | remark (around : Body.Layer) (layers : List Stmt.Layer) (c : Class) (before after : List String)
      (methods : List Function)

namespace CommentPlace

/-- The script with the text at the place. -/
def fill (s : Script) (text : String) : CommentPlace → Script
  | .file before after => { s with comments := before ++ text :: after }
  | .statement around layers => s.within around layers (.plain (.comment text))
  | .remark around layers c before after methods =>
    s.within around layers (.classDef { c with remarks := before ++ text :: after } methods)

/-- The lines that are written for the text. -/
def lines (t : Target) (text : String) : CommentPlace → List String
  | .file _ _ => Text.lines (headComment text t)
  | .statement _ _ => (Text.lines text).map fun l => trimEnd (t.commentMark ++ " " ++ l)
  | .remark .. => Text.lines (t.commentMark ++ " " ++ text)

/-- Whether every line gets a mark. -/
def marksLines : CommentPlace → Bool
  | .statement _ _ => true
  | .file _ _ | .remark .. => false

/-- Whether the text stands in the documentation of a Python module. -/
def isDocumentation (t : Target) : CommentPlace → Bool
  | .file _ _ => t = .python
  | .statement _ _ | .remark .. => false

/-- Which lines are comments. -/
theorem forall_lines (place : CommentPlace) {t : Target} (ht : place.isDocumentation t = false)
    (text : String) : (∀ l ∈ place.lines t text, IsComment t l) ↔
      place.marksLines = true ∨ ∀ l ∈ (Text.lines text).tail, IsComment t l := by
  cases place with
  | file before after =>
      have hrest : (∀ l ∈ Text.lines (trimEnd (t.commentMark ++ " " ++ text)), IsComment t l) ↔
          ∀ l ∈ (Text.lines text).tail, IsComment t l := by
        rw [forall_lines_trimEnd, forall_lines_append_mark]
      cases t with
      | python => cases ht
      | typescript | php =>
          simp only [marksLines, Bool.false_eq_true, false_or]
          exact hrest
  | statement around layers =>
      refine iff_of_true (fun l hl => ?_) (.inl rfl)
      obtain ⟨l, -, rfl⟩ := List.mem_map.1 hl
      rw [isComment_trimEnd, String.append_assoc]
      exact isComment_mark _
  | remark => simpa [lines, marksLines] using forall_lines_append_mark text

/-! ## Statements -/

theorem uniform_comment (t : Target) :
    Uniform (Layout.HasAt (fun text => Layout.marked (t.commentMark ++ " ") text) 0) fun text =>
      (Stmt.plain (.comment text)).layout t := by
  cases t <;> exact .ok (.self _)

/-- A class with a remark in which the text is left open. Nothing else in the class depends on its
remarks. -/
theorem uniform_remark (t : Target) (c : Class) (before after : List String)
    (methods : List Function) :
    Uniform (Layout.HasAt (fun text => [.line (t.commentMark ++ " " ++ text)]) 1) fun text =>
      (Stmt.classDef { c with remarks := before ++ text :: after } methods).layout t := by
  have hremark : Layout.HasAt (fun text => [.line (t.commentMark ++ " " ++ text)]) 0 fun text =>
      (before ++ text :: after).map fun r => .line (t.commentMark ++ " " ++ r) := by
    have hkept := Layout.kept_hasAt fun text => [Layout.line (t.commentMark ++ " " ++ text)]
    simp only [List.map_append, List.map_cons]
    exact hkept.append_left (hkept.append_right (.self _) _) _
  have hkept := Layout.kept_hasAt fun text => [Layout.line (t.commentMark ++ " " ++ text)]
  cases t with
  | python =>
      have hlayout (rs) : (Stmt.classDef { c with remarks := rs } methods).layout .python = (do
          let properties ← c.pythonProperties
          let constructor ← c.pythonConstructor
          let ms ← Function.toPythonAll methods
          let members := Layout.docString c.docstring ++ properties ++ constructor ++ ms.flatten
          let last := if members.isEmpty then [.line "pass"] else []
          return c.pythonHead ++
            [.nest (members ++ (rs.map fun r => .line ("# " ++ r)) ++ last), .blank]) := rfl
      simp only [hlayout]
      exact .const_bind _ fun properties => .const_bind _ fun constructor =>
        .const_bind _ fun ms => .pure <| hkept.append_left (hkept.append_right (hkept.nest
          (hkept.append_right (hkept.append_left hremark _) _)) [.blank]) c.pythonHead
  | typescript =>
      have hconstructor (rs) : ({ c with remarks := rs } : Class).typeScriptConstructor =
          c.typeScriptConstructor := rfl
      simp only [Stmt.layout, Stmt.toTypeScript, hconstructor]
      exact .const_bind _ fun properties => .const_bind _ fun constructor =>
        .const_bind _ fun ms => .pure <| hkept.append_left (hkept.between
          (hkept.append_left hremark _) (.line c.typeScriptHead) [.line "\x7d"]) _
  | php =>
      have hconstructor (rs) : ({ c with remarks := rs } : Class).phpConstructor =
          c.phpConstructor := rfl
      simp only [Stmt.layout, Stmt.toPhp, hconstructor]
      exact .const_bind _ fun properties => .const_bind _ fun constructor =>
        .const_bind _ fun ms => .pure <| hkept.append_left (hkept.between
          (hkept.append_left hremark _) (.line c.phpHead) [.line "\x7d"]) _

/-! ## The head of a file -/

/-- The text at the head of a file, among the others. In Python the quotes of the documentation
stand around all of them. -/
theorem uniform_head (t : Target) (s : Script) (o : Options) (before after : List String) :
    Uniform (fun F => ∃ front rest, (t = .python → (∃ ls, front = .line "\"\"\"" :: ls) ∧
        ∃ ls ls', rest = ls ++ .line "\"\"\"" :: ls') ∧
        ∀ text, F text = front ++ [.line (headComment text t)] ++ rest) fun text =>
      (fill s text (.file before after)).layout t o := by
  cases t with
  | python =>
      have hlayout (text) : (fill s text (.file before after)).layout .python o = (do
          let needs ← s.imports .python
          let aliases ← s.aliases.mapM pythonAlias
          let body ← s.body.toPython
          return Layout.docString (before ++ text :: after) ++
            pythonImports (ImportGroups.empty.addAll needs) ++ paragraph aliases ++ body) := rfl
      have hdoc (text) : Layout.docString (before ++ text :: after) = .line "\"\"\"" ::
          (before.map .line ++ .line text :: (after.map .line ++ [.line "\"\"\""])) := by
        simp [Layout.docString]
      simp only [hlayout, hdoc]
      refine .const_bind _ fun needs => .const_bind _ fun aliases => .const_bind _ fun body =>
        .pure ⟨.line "\"\"\"" :: before.map .line, after.map .line ++ .line "\"\"\"" ::
          (pythonImports (ImportGroups.empty.addAll needs) ++ paragraph aliases ++ body),
          fun _ => ⟨⟨_, rfl⟩, _, _, rfl⟩, fun text => ?_⟩
      simp [headComment]
  | typescript =>
      have hlayout (text) : (fill s text (.file before after)).layout .typescript o = (do
          let needs ← s.imports .typescript
          let aliases ← s.aliases.mapM typeScriptAlias
          let body ← s.body.toTypeScript
          return (before ++ text :: after).flatMap (Layout.commented "// ") ++
            typeScriptImports (ImportGroups.empty.addAll needs) ++ paragraph aliases ++ body) := rfl
      simp only [hlayout]
      refine .const_bind _ fun needs => .const_bind _ fun aliases => .const_bind _ fun body =>
        .pure ⟨before.flatMap (Layout.commented "// "), after.flatMap (Layout.commented "// ") ++
          (typeScriptImports (ImportGroups.empty.addAll needs) ++ paragraph aliases ++ body),
          (by rintro ⟨⟩), fun text => ?_⟩
      simp [headComment, Layout.commented]
  | php =>
      obtain ⟨space, hlayout⟩ : ∃ space, ∀ text,
          (fill s text (.file before after)).layout .php o = (do
            let needs ← s.imports .php
            let body ← s.body.toPhp
            return [.line "<?php", .blank] ++
              paragraph ((before ++ text :: after).flatMap (Layout.commented "// ")) ++
              paragraph space ++ phpImports (ImportUses.addAll [] needs) ++ body) :=
        ⟨_, fun _ => rfl⟩
      have hcomments (text) : paragraph ((before ++ text :: after).flatMap
          (Layout.commented "// ")) = before.flatMap (Layout.commented "// ") ++
            .line (trimEnd ("// " ++ text)) :: (after.flatMap (Layout.commented "// ") ++
              [.blank]) := by
        simp [paragraph, Layout.commented]
      simp only [hlayout, hcomments]
      refine .const_bind _ fun needs => .const_bind _ fun body =>
        .pure ⟨[.line "<?php", .blank] ++ before.flatMap (Layout.commented "// "),
          after.flatMap (Layout.commented "// ") ++ .blank :: (paragraph space ++
            phpImports (ImportUses.addAll [] needs) ++ body),
          (by rintro ⟨⟩), fun text => ?_⟩
      simp [headComment]

/-! ## The file -/

/-- **What is written for the text of a comment**, wherever it stands in a script and in every
language. Either there is no file, whatever the text is, or the lines for the text stand at a fixed
place of the file, each of them indented: in Python, for a text at the head, between the quotes of
the module's documentation. Everywhere else all of them are comments if the comment is a statement,
and otherwise just if the lines of the text behind its first one are comments, or blank, by
themselves. -/
theorem write_comment (place : CommentPlace) (s : Script) (t : Target) (o : Options) :
    (∃ e, ∀ text, (place.fill s text).write t o = .error e) ∨
    ∃ depth before after, IsClosed before ∧
      (place.isDocumentation t = true → (∃ rest, before = "\"\"\"\n" ++ rest) ∧
        ∃ rest rest', after = rest ++ "\"\"\"\n" ++ rest') ∧
      ∀ text, (place.fill s text).write t o = .ok (before ++
          String.join ((place.lines t text).map (Layout.indented o.indent depth)) ++ after) ∧
        (place.isDocumentation t = false → ((∀ l ∈ place.lines t text, IsComment t l) ↔
          place.marksLines = true ∨ ∀ l ∈ (Text.lines text).tail, IsComment t l)) := by
  have hlines (text : String) (ht : place.isDocumentation t = false) :=
    place.forall_lines ht text
  cases place with
  | file before after =>
      rcases uniform_head t s o before after with ⟨e, he⟩ | ⟨F, ⟨front, rest, hquotes, hF⟩, hok⟩
      · exact .inl ⟨e, fun text => by simp only [write_eq, he, error_bind]⟩
      · refine .inr ⟨0, Layout.writeAll o.indent 0 front, Layout.writeAll o.indent 0 rest,
          Layout.isClosed_writeAll o.indent 0 front, fun ht => ?_, fun text => ⟨?_, hlines text⟩⟩
        · obtain ⟨⟨ls, rfl⟩, ks, ks', rfl⟩ := hquotes (by simpa [isDocumentation] using ht)
          refine ⟨⟨_, rfl⟩, Layout.writeAll o.indent 0 ks, Layout.writeAll o.indent 0 ks', ?_⟩
          rw [Layout.writeAll_append, Layout.writeAll_quotes, ← String.append_assoc]
        · simp only [write_eq, hok, hF, ok_bind, Layout.writeAll_append, Layout.writeAll_line]
          rfl
  | statement around layers =>
      rcases write_within (.plain (.comment "")) (uniform_comment t) (fun _ => rfl)
        (fun _ => rfl) s around layers o with herror | ⟨depth, before, after, hclosed, hok⟩
      · exact .inl herror
      · refine .inr ⟨depth, before, after, hclosed, (absurd · Bool.false_ne_true),
          fun text => ⟨?_, hlines text⟩⟩
        have hmark : IsLine (t.commentMark ++ " ") := by
          cases t <;> decide
        rw [fill, hok text, Layout.writeAll_marked o.indent depth hmark]
        rfl
  | remark around layers c front rest methods =>
      rcases write_within (.classDef c methods) (uniform_remark t c front rest methods)
        (fun _ => rfl) (fun _ => rfl) s around layers o
        with herror | ⟨depth, before, after, hclosed, hok⟩
      · exact .inl herror
      · refine .inr ⟨depth, before, after, hclosed, (absurd · Bool.false_ne_true),
          fun text => ⟨?_, hlines text⟩⟩
        rw [fill, hok text, Layout.writeAll_line]
        rfl

/-- A comment of two lines in a branch is two lines of comment. -/
theorem write_comment_of_statement :
    let place : CommentPlace := .statement ⟨[], [], []⟩
      [.conditional (.literal (.bool true)) ⟨[], [], []⟩ .done]
    ∃ depth before after, (place.fill .empty "one\ntwo();").write .php .default =
        .ok (before ++ String.join ((place.lines .php "one\ntwo();").map
          (Layout.indented "    " depth)) ++ after) ∧
      ∀ l ∈ place.lines .php "one\ntwo();", IsComment .php l := by
  intro place
  rcases place.write_comment .empty .php .default with
    ⟨e, he⟩ | ⟨depth, before, after, -, -, hall⟩
  · have herror := he "one\ntwo();"
    rw [write_eq] at herror
    cases herror
  · obtain ⟨hwritten, hcomments⟩ := hall "one\ntwo();"
    exact ⟨depth, before, after, hwritten, (hcomments rfl).2 (.inl rfl)⟩

/-- The second line of a remark is code, and so is the second line of a text at the head of a file
in TypeScript and PHP. -/
theorem write_comment_of_two_lines :
    let remark : CommentPlace := .remark ⟨[], [], []⟩ [] (.new "Pet") [] [] []
    let head : CommentPlace := .file [] []
    (remark.fill .empty "sits\nfeed();").write .python .default =
        .ok ("class Pet:\n    # sits\n" ++ "    feed();\n" ++ "    pass\n\n") ∧
    (remark.fill .empty "sits\nfeed();").write .typescript .default =
        .ok ("class Pet \x7b\n    // sits\n" ++ "    feed();\n" ++ "\x7d\n") ∧
    (head.fill .empty "one\ntwo();").write .typescript .default = .ok ("// one\n" ++ "two();\n") ∧
    (head.fill .empty "one\ntwo();").write .php .default =
        .ok ("<?php\n\n// one\n" ++ "two();\n\n") ∧
    ¬ IsComment .python "feed();" ∧ ¬ IsComment .typescript "feed();" ∧
    ¬ IsComment .typescript "two();" ∧ ¬ IsComment .php "two();" :=
  ⟨(write_eq _ _ _).trans rfl, (write_eq _ _ _).trans rfl, (write_eq _ _ _).trans rfl,
    (write_eq _ _ _).trans rfl, by decide, by decide, by decide, by decide⟩

end CommentPlace

end Script

end Polyglot
