import Polyglot.Proofs.Stmt.Alike
import Polyglot.Script

/-!
# Sections of a file

A file in any language is a head, a section of imports, and the rest. Only the section of imports
depends on the requirements of the script.

* `Script.layout_eq_sections` : the file in one language.
* `Script.rest_eq_of_alike` : scripts with bodies that are written alike.
-/

set_option autoImplicit false

namespace Polyglot.Script

/-- What stands above the imports. -/
def head (s : Script) (o : Options) : Target → List Layout
  | .python => Layout.docString s.comments
  | .typescript => s.comments.flatMap (Layout.commented "// ")
  | .php =>
    let space := match o.phpNamespace with
      | none => []
      | some name => [.line ("namespace " ++ name ++ ";")]
    [.line "<?php", .blank] ++ paragraph (s.comments.flatMap (Layout.commented "// ")) ++
      paragraph space

/-- The lines that list the given requirements. -/
def importSection (is : List Import) : Target → List Layout
  | .python => pythonImports (ImportGroups.empty.addAll is)
  | .typescript => typeScriptImports (ImportGroups.empty.addAll is)
  | .php => phpImports (ImportUses.addAll [] is)

/-- What stands below the imports. -/
def rest (s : Script) : Target → Except Error (List Layout)
  | .python => do
    let aliases ← s.aliases.mapM pythonAlias
    let body ← s.body.toPython
    return paragraph aliases ++ body
  | .typescript => do
    let aliases ← s.aliases.mapM typeScriptAlias
    let body ← s.body.toTypeScript
    return paragraph aliases ++ body
  | .php => s.body.toPhp

/-- A file is written section by section; the first error is the one of the requirements. -/
theorem layout_eq_sections (s : Script) (t : Target) (o : Options) :
    s.layout t o = (do
      let is ← s.imports t
      let below ← s.rest t
      return s.head o t ++ importSection is t ++ below) := by
  cases t with
  | python =>
      rw [layout, toPython, rest]
      cases s.imports .python with
      | error e => rfl
      | ok is => cases s.aliases.mapM pythonAlias with
        | error e => rfl
        | ok aliases => cases s.body.toPython with
          | error e => rfl
          | ok body => simp [head, importSection]
  | typescript =>
      rw [layout, toTypeScript, rest]
      cases s.imports .typescript with
      | error e => rfl
      | ok is => cases s.aliases.mapM typeScriptAlias with
        | error e => rfl
        | ok aliases => cases s.body.toTypeScript with
          | error e => rfl
          | ok body => simp [head, importSection]
  | php => rfl

/-- Below the imports, bodies that are written alike make no difference. -/
theorem rest_eq_of_alike {s s' : Script} (haliases : s.aliases = s'.aliases)
    (h : Body.Alike s.body s'.body) (t : Target) : s.rest t = s'.rest t := by
  cases t with
  | python => rw [rest, haliases, h.python, rest]
  | typescript => rw [rest, haliases, h.typescript, rest]
  | php => exact h.php

end Polyglot.Script
