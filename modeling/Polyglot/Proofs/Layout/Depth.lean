import Polyglot.Layout
import Polyglot.Proofs.Text.Indented

/-!
# Layouts at different depths

A layout that is written deeper is the same text with more indentation in front of its lines.

* `Layout.write_line` : what is written for a text on a line of the layout.
* `Layout.isClosed_writeAll` : what is written is empty or ends in a newline.
* `Layout.writeAll_add` : what is written at one depth, from what is written at another one.
-/

set_option autoImplicit false

namespace Polyglot.Layout

open Text

variable {indent : String}

theorem indented_eq (indent : String) (depth : Nat) (l : String) :
    indented indent depth l = indentLine (times depth indent) l ++ "\n" := by
  rw [indented, indentLine]
  by_cases h : l = ""
  · rw [if_pos h, if_pos h]
    rfl
  · rw [if_neg h, if_neg h]

/-- Lines that are indented each, as a text. -/
theorem join_indented (indent : String) (depth : Nat) {ls : List String} (h : ls ≠ []) :
    String.join (ls.map (indented indent depth)) =
      "\n".intercalate (ls.map (indentLine (times depth indent))) ++ "\n" := by
  induction ls with
  | nil => exact absurd rfl h
  | cons l ls ih =>
      rw [List.map_cons, List.map_cons, String.join_cons, indented_eq]
      cases ls with
      | nil =>
          rw [List.map_nil, List.map_nil, String.intercalate_singleton]
          exact String.append_empty
      | cons l' ls =>
          have hne : (l' :: ls).map (indentLine (times depth indent)) ≠ [] :=
            mt List.map_eq_nil_iff.1 (List.cons_ne_nil _ _)
          rw [ih (List.cons_ne_nil _ _), String.intercalate_cons_of_ne_nil hne]
          simp only [String.append_assoc]

/-- What is written for a text on a line of the layout. -/
theorem write_line (indent : String) (depth : Nat) (text : String) :
    (line text).write indent depth = indentLines (times depth indent) text ++ "\n" :=
  join_indented indent depth (lines_ne_nil text)

/-- A text without a newline is one line. Where there is no text, nothing is indented. -/
theorem write_line_of_not_mem {text : String} (h : '\n' ∉ text.toList) (indent : String)
    (depth : Nat) : (line text).write indent depth =
      if text = "" then "\n" else times depth indent ++ text ++ "\n" := by
  rw [write_line, indentLines, lines_eq_singleton h, List.map_singleton,
    String.intercalate_singleton, indentLine]
  split
  · rfl
  · rfl

/-- Lines that are indented each. -/
theorem isClosed_indentedAll (indent : String) (depth : Nat) (ls : List String) :
    IsClosed (String.join (ls.map (indented indent depth))) := by
  induction ls with
  | nil => exact .inl rfl
  | cons l ls ih =>
      rw [List.map_cons, String.join_cons]
      exact .append (.inr ⟨_, indented_eq indent depth l⟩) ih

/-- Lines that are indented more are the lines indented by the difference. -/
theorem indentedAll_add (h : '\n' ∉ indent.toList) (d k : Nat) :
    ∀ {ls : List String}, (∀ l ∈ ls, '\n' ∉ l.toList) →
      String.join (ls.map (indented indent (d + k))) =
        indentLines (times d indent) (String.join (ls.map (indented indent k)))
  | [], _ => rfl
  | l :: ls, hls => by
      have hl : '\n' ∉ (indentLine (times k indent) l).toList :=
        newline_not_mem_indentLine (not_mem_times h k) (hls l (List.mem_cons_self ..))
      have hhead : indented indent (d + k) l =
          indentLines (times d indent) (indented indent k l) := by
        rw [indented_eq, indented_eq, indentLines_line hl, indentLine_indentLine, times_add]
      rw [List.map_cons, List.map_cons, String.join_cons, String.join_cons,
        indentLines_append (.inr ⟨_, indented_eq indent k l⟩), hhead,
        indentedAll_add h d k fun l' hl' => hls l' (List.mem_cons_of_mem _ hl')]

mutual

theorem isClosed_write (indent : String) (depth : Nat) :
    ∀ x : Layout, IsClosed (x.write indent depth)
  | .line text => isClosed_indentedAll indent depth (lines text)
  | .nest body => isClosed_writeAll indent (depth + 1) body

/-- What is written is empty or ends in a newline. -/
theorem isClosed_writeAll (indent : String) (depth : Nat) :
    ∀ xs : List Layout, IsClosed (writeAll indent depth xs)
  | [] => .inl rfl
  | x :: xs => (isClosed_write indent depth x).append (isClosed_writeAll indent depth xs)

end

mutual

theorem write_add (h : '\n' ∉ indent.toList) (d : Nat) : ∀ (k : Nat) (x : Layout),
    x.write indent (d + k) = indentLines (times d indent) (x.write indent k)
  | k, .line _ => indentedAll_add h d k fun _ hl => newline_not_mem_of_mem_lines hl
  | k, .nest body => writeAll_add h d (k + 1) body

/-- Writing deeper puts as much more indentation in front of every line that is not empty. -/
theorem writeAll_add (h : '\n' ∉ indent.toList) (d : Nat) : ∀ (k : Nat) (xs : List Layout),
    writeAll indent (d + k) xs = indentLines (times d indent) (writeAll indent k xs)
  | _, [] => rfl
  | k, x :: xs => by
      rw [writeAll, writeAll, indentLines_append (isClosed_write indent k x),
        write_add h d k x, writeAll_add h d k xs]

end

end Polyglot.Layout
