/-!
# Output languages

The three languages that a program can be written in, the names under which each is asked for,
and values that are given once per language.

* `Target.named?` accepts an identifier or a file extension in any ASCII case.
* `Target.ofId?` and `Target.ofLanguage?` compare exactly.
-/

set_option autoImplicit false

namespace Polyglot

/-- An output language. -/
inductive Target where
  | python
  | typescript
  | php
  deriving DecidableEq, Repr

namespace Target

/-- Every language, in the order in which they are listed to a caller. -/
def all : List Target := [.python, .typescript, .php]

/-- Lowercase identifier. -/
def id : Target → String
  | .python => "python"
  | .typescript => "typescript"
  | .php => "php"

/-- Extension of the files written in the language, without the dot. -/
def extension : Target → String
  | .python => "py"
  | .typescript => "ts"
  | .php => "php"

def title : Target → String
  | .python => "Python"
  | .typescript => "TypeScript"
  | .php => "PHP"

/-- The language with exactly this identifier. -/
def ofId? (s : String) : Option Target := all.find? fun t => t.id = s

/-- The language with exactly this identifier or file extension. -/
def ofLanguage? (s : String) : Option Target := all.find? fun t => t.id = s ∨ t.extension = s

/-- The language that a user means: letters of the ASCII range count in either case. -/
def named? (s : String) : Option Target := ofLanguage? (s.map Char.toLower)

theorem ofLanguage?_extension (t : Target) : ofLanguage? t.extension = some t := by
  cases t <;> decide

end Target

/-- One value for each output language. -/
structure PerTarget (α : Type) where
  python : α
  typescript : α
  php : α
  deriving DecidableEq, Repr

/-- The value for one language. -/
def PerTarget.get {α : Type} (p : PerTarget α) : Target → α
  | .python => p.python
  | .typescript => p.typescript
  | .php => p.php

end Polyglot
