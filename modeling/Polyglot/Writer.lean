import Polyglot.Error
import Polyglot.Text.Blank
import Polyglot.Text.Lines

/-!
# Writers

Lines are put one after the other into a buffer, by a writer that knows the depth at which it
writes. A nested writer stands one level deeper and fills the buffer of the one that it comes from.

* `Writer.line0`, `Writer.line1`, `Writer.blank` : what a writer puts into its buffer.
* `Writer.run`, `Writer.runAll` : trees of such operations.
* `WriteM` : code that writes and may fail; `WriteM.nested` hands it a nested writer.
-/

set_option autoImplicit false

namespace Polyglot

/-- A buffer with the depth at which lines are put into it. -/
structure Writer where
  out : String
  indent : String
  depth : Nat

namespace Writer

open Text

def new (indent : String) (depth : Nat) : Writer := ⟨"", indent, depth⟩

/-- Puts one line into the buffer; an empty line is not indented. -/
def push (w : Writer) (depth : Nat) (line : String) : Writer :=
  if line = "" then { w with out := w.out ++ "\n" }
  else { w with out := w.out ++ times depth w.indent ++ line ++ "\n" }

/-- Puts the lines of a text into the buffer. -/
def lineAt (w : Writer) (depth : Nat) (text : String) : Writer :=
  (lines text).foldl (fun w line => w.push depth line) w

def line0 (w : Writer) (text : String) : Writer := w.lineAt w.depth text

def line1 (w : Writer) (text : String) : Writer := w.lineAt (w.depth + 1) text

def blank (w : Writer) : Writer := { w with out := w.out ++ "\n" }

/-- The writer one level deeper, over the same buffer. -/
def deeper (w : Writer) : Writer := { w with depth := w.depth + 1 }

/-- Goes on with what a nested writer has left in the buffer. -/
def resume (w inner : Writer) : Writer := { w with out := inner.out }

/-- What a writer can be asked to do. -/
inductive Op where
  | line0 (text : String)
  | line1 (text : String)
  | blank
  | nest (ops : List Op)

mutual

/-- Does one thing. -/
def run (w : Writer) : Op → Writer
  | .line0 text => w.line0 text
  | .line1 text => w.line1 text
  | .blank => w.blank
  | .nest ops => w.resume (runAll w.deeper ops)

def runAll (w : Writer) : List Op → Writer
  | [] => w
  | op :: ops => runAll (w.run op) ops

end

end Writer

/-- Code that writes, and that may fail; what it has written is lost then. -/
abbrev WriteM := StateT Writer (Except Error)

namespace WriteM

def line0 (text : String) : WriteM Unit := modify (·.line0 text)

def line1 (text : String) : WriteM Unit := modify (·.line1 text)

def blankLine : WriteM Unit := modify Writer.blank

/-- Code that writes with a nested writer. -/
def nested {α : Type} (code : WriteM α) : WriteM α := fun w => do
  let (a, inner) ← code w.deeper
  return (a, w.resume inner)

/-- Code that is only run under a condition. -/
def when (condition : Bool) (code : WriteM Unit) : WriteM Unit :=
  if condition then code else pure ()

/-- A comment, with the marker in front of every line of its text and no blanks at line ends. -/
def marked (marker text : String) : WriteM Unit :=
  (Text.lines text).forM fun l => line0 (Text.trimEnd (marker ++ l))

/-- A documentation string between triple quotes, if there is anything in it. -/
def docString (texts : List String) : WriteM Unit :=
  when (!texts.isEmpty) do
    line0 "\"\"\""
    texts.forM line0
    line0 "\"\"\""

/-- A documentation block, if there is anything in it. -/
def docBlock (texts : List String) : WriteM Unit :=
  when (!texts.isEmpty) do
    line0 "/**"
    texts.forM fun text => line0 (if text = "" then " *" else " * " ++ text)
    line0 " */"

end WriteM

end Polyglot
