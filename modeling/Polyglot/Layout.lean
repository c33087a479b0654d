import Polyglot.Text.Lines

/-!
# Layout of source text

Source text is a sequence of lines and nested groups of lines: what a writer puts into its buffer,
as data. Only `Layout.write` knows the indentation: a group is written one level deeper than what
surrounds it, and an empty line is written without indentation.

* `write_nest` : a nested group is written like its content one level deeper.
* `writeAll_append` : layouts are written one after the other.
-/

set_option autoImplicit false

namespace Polyglot

/-- A piece of source text. The text of a `line` may itself hold newlines: every line of it stands
at the same depth. -/
inductive Layout where
  | line (text : String)
  | nest (body : List Layout)

namespace Layout

def blank : Layout := .line ""

/-- One line of output at a depth: the indentation is left out if there is nothing to indent. -/
def indented (indent : String) (depth : Nat) (text : String) : String :=
  if text = "" then "\n" else Text.times depth indent ++ text ++ "\n"

mutual

/-- The characters written for a layout at a depth. -/
def write (indent : String) (depth : Nat) : Layout → String
  | .line text => String.join ((Text.lines text).map (indented indent depth))
  | .nest body => writeAll indent (depth + 1) body

/-- The characters written for a sequence of layouts at a depth. -/
def writeAll (indent : String) (depth : Nat) : List Layout → String
  | [] => ""
  | x :: xs => x.write indent depth ++ writeAll indent depth xs

end

@[simp] theorem write_nest (indent : String) (depth : Nat) (body : List Layout) :
    (Layout.nest body).write indent depth = writeAll indent (depth + 1) body := rfl

@[simp] theorem writeAll_nil (indent : String) (depth : Nat) : writeAll indent depth [] = "" := rfl

theorem writeAll_append (indent : String) (depth : Nat) (xs ys : List Layout) :
    writeAll indent depth (xs ++ ys) = writeAll indent depth xs ++ writeAll indent depth ys := by
  induction xs with
  | nil => simp [writeAll]
  | cons x xs ih => simp [writeAll, ih, String.append_assoc]

end Layout

end Polyglot
