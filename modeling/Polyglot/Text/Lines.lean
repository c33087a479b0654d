/-!
# Lines of a text

A text is cut at every newline and at nothing else, so a text without newlines is one line and the
empty text is one empty line.
-/

set_option autoImplicit false

namespace Polyglot.Text

/-- The lines of a text, without the newlines between them. -/
def lines (s : String) : List String := (s.toList.splitOn '\n').map String.ofList

def times (n : Nat) (s : String) : String := String.join (List.replicate n s)

@[simp] theorem times_zero (s : String) : times 0 s = "" := rfl

theorem times_succ (n : Nat) (s : String) : times (n + 1) s = s ++ times n s := by
  rw [times, List.replicate_succ, String.join_cons]
  rfl

end Polyglot.Text
