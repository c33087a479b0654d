import Polyglot.Proofs.Imports.Uses
import Polyglot.Proofs.Writer.Php
import Polyglot.Proofs.Writer.Python
import Polyglot.Proofs.Writer.TypeScript
import Polyglot.Script

/-!
# What is written for a file

The writer of a file writes its layout, section by section, so the text of a file is its layout
written at depth zero.

* `Script.writes_layout` : the file in any language.
* `Script.write_eq` : its text.
-/

set_option autoImplicit false

namespace Polyglot.Script

open Outcome WriteM

/-! ## Sections -/

theorem paragraph_of_ne_nil {ls : List Layout} (h : ls ≠ []) : paragraph ls = ls ++ [.blank] := by
  rw [paragraph, if_neg fun hempty => h (List.isEmpty_iff.1 hempty)]

theorem writes_paragraph {α : Type} {f : α → WriteM Unit} {g : α → Except Error Layout}
    (h : ∀ a, Writes (f a) () (do
      let l ← g a
      return [l])) (as : List α) : Writes (writeParagraph as f) () (do
      let ls ← as.mapM g
      return paragraph ls) := by
  cases as with
  | nil => exact .of_follows (.pure rfl)
  | cons a as =>
      refine .of_follows <| .step (Writes.forM_line h _) fun ls hls => .lastLines .blankLine ?_
      have hlength := (forall₂_of_mapM_eq_ok (P := fun _ _ => True) hls
        fun _ _ _ _ => trivial).length_eq
      exact (paragraph_of_ne_nil (List.ne_nil_of_length_pos (hlength ▸ Nat.succ_pos _))).symm

/-- Lines that are there in any case. -/
theorem writes_lines {α : Type} (f : α → String) (as : List α) :
    Writes (writeParagraph as fun a => line0 (f a)) ()
      (.ok (paragraph (as.map fun a => .line (f a)))) := by
  cases as with
  | nil => exact .of_follows (.pure rfl)
  | cons a as => exact .of_follows <| .lines (.forM_line0 f _) <| .lastLines .blankLine rfl

theorem writes_pythonImports (g : ImportGroups) :
    Writes (writePythonImports g) () (.ok (pythonImports g)) :=
  .of_follows <| .lines (writes_lines _ _) <| .lastLines (writes_lines _ _) rfl

theorem writes_pythonAlias (a : Alias) : Writes (writePythonAlias a) () (do
    let l ← pythonAlias a
    return [l]) := by
  rw [pythonAlias, bind_assoc]
  exact .of_follows <| .lift fun _ _ => .lastLines (.line0 _) rfl

theorem writes_typeScriptImports (g : ImportGroups) :
    Writes (writeTypeScriptImports g) () (.ok (typeScriptImports g)) := by
  refine .of_follows <| .lines (.forM_line0 _ _) <| .lines (.forM_line0 _ _) <|
    .lastLines (.when .blankLine _) ?_
  obtain ⟨modules, names⟩ := g
  cases modules with
  | nil => cases names <;> simp [typeScriptImports, paragraph, ImportGroups.isEmpty]
  | cons m ms => simp [typeScriptImports, paragraph, ImportGroups.isEmpty]

theorem writes_typeScriptAlias (a : Alias) : Writes (writeTypeScriptAlias a) () (do
    let l ← typeScriptAlias a
    return [l]) := by
  rw [typeScriptAlias, bind_assoc]
  exact .of_follows <| .lift fun _ _ => .lastLines (.line0 _) rfl

theorem writes_phpNamespace (phpNamespace : Option String) :
    Writes (writePhpNamespace phpNamespace) () (.ok (paragraph (match phpNamespace with
      | none => []
      | some name => [.line ("namespace " ++ name ++ ";")]))) := by
  cases phpNamespace with
  | none => exact .of_follows (.pure rfl)
  | some name => exact .of_follows <| .lines (.line0 _) <| .lastLines .blankLine rfl

theorem writes_phpUses (use : String × List (Option String)) : Writes (writePhpUses use) ()
    (.ok ((ImportUses.sorted use.2).flatMap fun name => [phpUse ⟨use.1, name⟩])) :=
  .forM_flatMap (fun
    | none => .line0 _
    | some _ => .line0 _) _

/-- The loop over modules and names writes a line for each requirement. -/
theorem writes_phpImports (is : List Import) :
    Writes (writeParagraph (ImportUses.addAll [] is) writePhpUses) ()
      (.ok (phpImports (ImportUses.addAll [] is))) := by
  have hempty := ImportUses.isEmpty_requirements_addAll is
  generalize ImportUses.addAll [] is = uses at hempty ⊢
  have hlines : uses.flatMap (fun use => (ImportUses.sorted use.2).flatMap fun name =>
      [phpUse ⟨use.1, name⟩]) = uses.requirements.map phpUse := by
    simp only [ImportUses.requirements, ← List.map_eq_flatMap, List.map_flatMap, List.map_map,
      Function.comp_def]
  have hloop := Writes.forM_flatMap writes_phpUses uses
  rw [hlines] at hloop
  cases uses with
  | nil => exact .of_follows (.pure rfl)
  | cons use uses =>
      refine .of_follows <| .lines hloop <| .lastLines .blankLine ?_
      rw [phpImports, paragraph, List.isEmpty_map, hempty]
      rfl

/-! ## Files -/

theorem writes_toPython (s : Script) : Writes s.writePython () s.toPython :=
  .of_follows <| .lines (.docString _) <| .lift fun _ _ => .lines (writes_pythonImports _) <|
    .stepOf (writes_paragraph writes_pythonAlias _) fun _ _ =>
    .last (s.body.writes_python.returning ()) fun _ _ => rfl

theorem writes_toTypeScript (s : Script) : Writes s.writeTypeScript () s.toTypeScript :=
  .of_follows <| .lines (.forM_flatMap (fun _ => .line0 _) _) <| .lift fun _ _ =>
    .lines (writes_typeScriptImports _) <|
    .stepOf (writes_paragraph writes_typeScriptAlias _) fun _ _ =>
    .last s.body.writes_typeScript fun _ _ => rfl

theorem writes_toPhp (s : Script) (phpNamespace : Option String) :
    Writes (s.writePhp phpNamespace) () (s.toPhp phpNamespace) := by
  have hcomments : s.comments.map (fun c => Layout.line (Text.trimEnd ("// " ++ c))) =
      s.comments.flatMap (Layout.commented "// ") := List.map_eq_flatMap
  refine .of_follows <| .lines (.line0 _) <| .lines .blankLine <| .lines (writes_lines _ _) <|
    .lines (writes_phpNamespace _) <| .lift fun _ _ => .lines (writes_phpImports _) <|
    .last s.body.writes_php fun _ _ => ?_
  rw [hcomments]
  rfl

/-- The writer of a file writes its layout. -/
theorem writes_layout (s : Script) (t : Target) (o : Options) :
    Writes (s.emit t o) () (s.layout t o) := by
  cases t with
  | python => exact s.writes_toPython
  | typescript => exact s.writes_toTypeScript
  | php => exact s.writes_toPhp o.phpNamespace

/-- The text of a file is its layout, written at depth zero. -/
theorem write_eq (s : Script) (t : Target) (o : Options) : s.write t o = (do
    let ls ← s.layout t o
    return Layout.writeAll o.indent 0 ls) := by
  rw [write, s.writes_layout t o]
  cases s.layout t o with
  | error e => rfl
  | ok ls => exact congrArg Except.ok String.empty_append

end Polyglot.Script
