import Polyglot.Script

/-!
# Where scripts are written to

A script is rendered to a text, into an open handle, or into a file. Only a file can be formatted
afterwards, and only a Python file: programs that are not part of the library work on the file once
it is written.

* `Script.source` : the text.
* `Script.sendTo` : the handle receives all of the text or nothing.
* `Script.saveWith` : the file receives all of the text or is left as it was, and is then formatted.
* `Script.saveTo` : the same where none of the programs is installed.
-/

set_option autoImplicit false

namespace Polyglot

/-- A place in a file system: whether a file can be written there, and the text of the one that is
there, if one is. -/
structure File where
  writable : Bool
  content : Option String
  deriving DecidableEq, Repr

/-- The programs that a system has: what becomes of a file when a program is called on it with
arguments, and whether the program succeeds. -/
def Programs := (program : String) → (args : List String) → File → File × Bool

namespace Programs

/-- A system without any program. A call of a program that is not there leaves the file. -/
def none : Programs := fun _ _ f => (f, false)

/-- Calls a program on a file. -/
def format (ps : Programs) (program : String) (args : List String) (f : File) :
    File × Except Error Unit :=
  let called := ps program args f
  (called.1, if called.2 then .ok () else .error (.formatter program))

/-- Sorts the imports of a Python file and then lays out its code. -/
def formatPython (ps : Programs) (f : File) : File × Except Error Unit :=
  match ps.format "isort" [] f with
  | (f, .error e) => (f, .error e)
  | (f, .ok ()) => ps.format "black" ["--target-version=py37", "--line-length=98"] f

end Programs

namespace Script

/-- The text of a script; a text cannot be formatted. -/
def source (s : Script) (t : Target) (o : Options) : Except Error String :=
  if o.pretty then .error (.notYetSupported .prettySource) else s.write t o

/-- Adds the text of a script to what a handle has received; a handle cannot be formatted. -/
def sendTo (received : String) (s : Script) (t : Target) (o : Options) :
    String × Except Error Unit :=
  if o.pretty then (received, .error (.notYetSupported .prettyHandle))
  else
    match s.write t o with
    | .error e => (received, .error e)
    | .ok text => (received ++ text, .ok ())

/-- Puts the text of a script into a file. -/
def saveWith (ps : Programs) (f : File) (s : Script) (t : Target) (o : Options) :
    File × Except Error Unit :=
  if o.pretty ∧ t ≠ .python then (f, .error (.notYetSupported (.prettyFile t)))
  else
    match s.write t o with
    | .error e => (f, .error e)
    | .ok text =>
      if f.writable then
        let written := { f with content := some text }
        if o.pretty then ps.formatPython written else (written, .ok ())
      else (f, .error .file)

/-- Puts the text of a script into a file on a system without formatters. -/
def saveTo (f : File) (s : Script) (t : Target) (o : Options) : File × Except Error Unit :=
  s.saveWith .none f t o

/-- The text from the writer that is found by the name or file extension of a language. -/
def writeAs? (s : Script) (language : String) (o : Options) : Option (Except Error String) :=
  (Target.ofLanguage? language).map fun t => s.write t o

end Script

end Polyglot
