import Polyglot.Options
import Polyglot.Stmt.Imports
import Polyglot.Writer.Php
import Polyglot.Writer.Python
import Polyglot.Writer.TypeScript

/-!
# Scripts

A script is a whole file: comments at its head, named types, and statements.

* `Script.addAlias` : named types have different names.
* `Script.imports` : everything that the written file needs in scope.
* `Script.emit`, `Script.write` : the file in one language, put into a buffer line by line.
* `Script.layout` : the same lines as data.
-/

set_option autoImplicit false

namespace Polyglot

/-- A named type, which TypeScript can export. -/
structure Alias where
  name : String
  base : Ty
  isExported : Bool

/-- A file under construction. -/
structure Script where
  body : Body
  comments : List String
  aliases : List Alias

namespace Script

open WriteM

def empty : Script := ⟨.empty, [], []⟩

/-- Adds a comment at the head of the file. -/
def addComment (s : Script) (text : String) : Script := { s with comments := s.comments ++ [text] }

/-- Adds a named type, and gives the type to use in its place. -/
def addAlias (s : Script) (name : String) (base : Ty) (isExported : Bool) :
    Except Error (Script × Ty) :=
  if name ∈ s.aliases.map Alias.name then .error (.invalid (.duplicateAlias name))
  else .ok ({ s with aliases := s.aliases ++ [⟨name, base, isExported⟩] }, .alias name base)

/-- What the declarations of the named types need; PHP has none. -/
def aliasImports (s : Script) : Target → List Import
  | .python =>
    s.aliases.flatMap (fun a => a.base.imports .python) ++
      (if s.aliases.isEmpty then [] else [.named "typing" "NewType"])
  | .typescript => s.aliases.flatMap fun a => a.base.imports .typescript
  | .php => []

/-- Everything that the file needs in scope, with repetitions. -/
def imports (s : Script) (t : Target) : Except Error (List Import) := do
  let own ← s.body.needs t
  return own ++ s.aliasImports t

/-- Lines with an empty line behind them, if there are any. -/
def paragraph (lines : List Layout) : List Layout :=
  if lines.isEmpty then [] else lines ++ [.blank]

/-- The import lines of a Python file: modules, then names. -/
def pythonImports (g : ImportGroups) : List Layout :=
  paragraph (g.modules.map fun m => .line ("import " ++ m)) ++
    paragraph (g.names.map fun n => .line ("from " ++ n.1 ++ " import " ++ ", ".intercalate n.2))

/-- The declaration of a named type in Python. -/
def pythonAlias (a : Alias) : Except Error Layout := do
  let base ← a.base.pythonText
  return .line (a.name ++ " = NewType(" ++ Text.Quoted.encode a.name ++ ", " ++ base ++ ")")

def toPython (s : Script) : Except Error (List Layout) := do
  let needs ← s.imports .python
  let aliases ← s.aliases.mapM pythonAlias
  let body ← s.body.toPython
  return Layout.docString s.comments ++ pythonImports (ImportGroups.empty.addAll needs) ++
    paragraph aliases ++ body

/-- The import lines of a TypeScript file: modules, then names. -/
def typeScriptImports (g : ImportGroups) : List Layout :=
  paragraph (g.modules.map (fun m => .line ("import " ++ Text.Quoted.encode m ++ ";")) ++
    g.names.map fun n => .line ("import \x7b" ++ ", ".intercalate n.2 ++ "\x7d from " ++
      Text.Quoted.encode n.1 ++ ";"))

/-- The declaration of a named type in TypeScript, as a branded type. -/
def typeScriptAlias (a : Alias) : Except Error Layout := do
  let t ← a.base.toTypeScript
  let base := if t.closed then t.text else Code.parenthesized t.text
  return .line ((if a.isExported then "export " else "") ++ "type " ++ a.name ++ " = " ++ base ++
    " & \x7breadonly brand: unique symbol\x7d;")

def toTypeScript (s : Script) : Except Error (List Layout) := do
  let needs ← s.imports .typescript
  let aliases ← s.aliases.mapM typeScriptAlias
  let body ← s.body.toTypeScript
  return s.comments.flatMap (Layout.commented "// ") ++
    typeScriptImports (ImportGroups.empty.addAll needs) ++ paragraph aliases ++ body

/-- A `use` line of a PHP file. -/
def phpUse (i : Import) : Layout :=
  match i.name with
  | none => .line ("use " ++ i.module ++ ";")
  | some name => .line ("use " ++ i.module ++ " as " ++ name ++ ";")

/-- The `use` lines of a PHP file. -/
def phpImports (uses : ImportUses) : List Layout := paragraph (uses.requirements.map phpUse)

/-- A PHP file; named types are not declared. -/
def toPhp (s : Script) (phpNamespace : Option String) : Except Error (List Layout) := do
  let needs ← s.imports .php
  let body ← s.body.toPhp
  let space := match phpNamespace with
    | none => []
    | some name => [.line ("namespace " ++ name ++ ";")]
  return [.line "<?php", .blank] ++ paragraph (s.comments.flatMap (Layout.commented "// ")) ++
    paragraph space ++ phpImports (ImportUses.addAll [] needs) ++ body

/-- The lines of the file in one language. -/
def layout (s : Script) (t : Target) (o : Options) : Except Error (List Layout) :=
  match t with
  | .python => s.toPython
  | .typescript => s.toTypeScript
  | .php => s.toPhp o.phpNamespace

/-! ## Writing a file -/

/-- Code for each member of a list, with an empty line behind it if there are any. -/
def writeParagraph {α : Type} (members : List α) (code : α → WriteM Unit) : WriteM Unit :=
  when (!members.isEmpty) do
    members.forM code
    blankLine

/-- A comment whose marker stands only in front of the first line of its text. -/
def writeComment (text : String) : WriteM Unit := line0 (Text.trimEnd ("// " ++ text))

def writePythonImports (g : ImportGroups) : WriteM Unit := do
  writeParagraph g.modules fun m => line0 ("import " ++ m)
  writeParagraph g.names fun n => line0 ("from " ++ n.1 ++ " import " ++ ", ".intercalate n.2)

def writePythonAlias (a : Alias) : WriteM Unit := do
  line0 (a.name ++ " = NewType(" ++ Text.Quoted.encode a.name ++ ", " ++ (← a.base.pythonText) ++
    ")")

def writePython (s : Script) : WriteM Unit := do
  docString s.comments
  writePythonImports (ImportGroups.empty.addAll (← s.imports .python))
  writeParagraph s.aliases writePythonAlias
  let _ ← s.body.writePython

def writeTypeScriptImports (g : ImportGroups) : WriteM Unit := do
  g.modules.forM fun m => line0 ("import " ++ Text.Quoted.encode m ++ ";")
  g.names.forM fun n => line0 ("import \x7b" ++ ", ".intercalate n.2 ++ "\x7d from " ++
    Text.Quoted.encode n.1 ++ ";")
  when (!g.isEmpty) blankLine

def writeTypeScriptAlias (a : Alias) : WriteM Unit := do
  let t ← a.base.toTypeScript
  let base := if t.closed then t.text else Code.parenthesized t.text
  line0 ((if a.isExported then "export " else "") ++ "type " ++ a.name ++ " = " ++ base ++
    " & \x7breadonly brand: unique symbol\x7d;")

def writeTypeScript (s : Script) : WriteM Unit := do
  s.comments.forM writeComment
  writeTypeScriptImports (ImportGroups.empty.addAll (← s.imports .typescript))
  writeParagraph s.aliases writeTypeScriptAlias
  s.body.writeTypeScript

def writePhpNamespace : Option String → WriteM Unit
  | none => return
  | some name => do
    line0 ("namespace " ++ name ++ ";")
    blankLine

/-- The `use` lines of one module. -/
def writePhpUses (use : String × List (Option String)) : WriteM Unit :=
  (ImportUses.sorted use.2).forM fun
    | none => line0 ("use " ++ use.1 ++ ";")
    | some name => line0 ("use " ++ use.1 ++ " as " ++ name ++ ";")

def writePhp (s : Script) (phpNamespace : Option String) : WriteM Unit := do
  line0 "<?php"
  blankLine
  writeParagraph s.comments writeComment
  writePhpNamespace phpNamespace
  writeParagraph (ImportUses.addAll [] (← s.imports .php)) writePhpUses
  s.body.writePhp

/-- Writes the file in one language. -/
def emit (s : Script) (t : Target) (o : Options) : WriteM Unit :=
  match t with
  | .python => s.writePython
  | .typescript => s.writeTypeScript
  | .php => s.writePhp o.phpNamespace

/-- The text of the file in one language, whatever is said about formatting. -/
def write (s : Script) (t : Target) (o : Options) : Except Error String := do
  let (_, w) ← (s.emit t o).run (Writer.new o.indent 0)
  return w.out

end Script

end Polyglot
