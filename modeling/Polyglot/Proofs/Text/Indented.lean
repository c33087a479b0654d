import Mathlib.Data.List.Basic
import Polyglot.Text.Lines

/-!
# Texts with every line indented

Something is put in front of every line of a text, but for the lines that are empty. A text that
ends in a newline is indented by itself: what follows it stands on other lines.

* `Text.indentLines` : a text with its lines indented.
* `Text.indentLines_append` : texts behind each other.
* `Text.indentLine_indentLine` : a line that is indented twice.
-/

set_option autoImplicit false

namespace Polyglot.Text

variable {p s : String}

/-- A line with something in front of it; an empty line stays empty. -/
def indentLine (p line : String) : String := if line = "" then "" else p ++ line

/-- A text with something in front of each of its lines that is not empty. -/
def indentLines (p s : String) : String := "\n".intercalate ((lines s).map (indentLine p))

/-- The text is empty or ends in a newline. -/
def IsClosed (s : String) : Prop := s = "" ∨ ∃ s', s = s' ++ "\n"

/-! ## Lines -/

theorem lines_ne_nil (s : String) : lines s ≠ [] := fun h =>
  List.splitOn_ne_nil '\n' s.toList (List.map_eq_nil_iff.1 h)

/-- A text without a newline is one line. -/
theorem lines_eq_singleton (h : '\n' ∉ s.toList) : lines s = [s] := by
  rw [lines, List.splitOn_eq_singleton h, List.map_singleton, String.ofList_toList]

/-- The lines with newlines between them are the text. -/
theorem intercalate_lines (s : String) : "\n".intercalate (lines s) = s := by
  refine String.toList_inj.1 ?_
  simp [lines, String.toList_intercalate, Function.comp_def]

/-- A newline ends a line and begins another one. -/
theorem lines_append_newline (a b : String) : lines (a ++ "\n" ++ b) = lines a ++ lines b := by
  have hchars : (a ++ "\n" ++ b).toList = a.toList ++ '\n' :: b.toList := by
    simp only [String.toList_append, List.append_assoc]
    rfl
  rw [lines, hchars, List.splitOn_append_cons_self, List.map_append]
  rfl

theorem newline_not_mem_of_mem_splitOn : ∀ {cs l : List Char}, l ∈ cs.splitOn '\n' → '\n' ∉ l
  | [], l, h => by
      rw [List.splitOn_nil, List.mem_singleton] at h
      rw [h]
      exact List.not_mem_nil
  | c :: cs, l, h => by
      rw [List.splitOn_cons_eq_if_modifyHead] at h
      by_cases hc : (c == '\n') = true
      · rw [if_pos hc, List.mem_cons] at h
        rcases h with rfl | h
        · exact List.not_mem_nil
        · exact newline_not_mem_of_mem_splitOn h
      · rw [if_neg hc] at h
        cases hsplit : cs.splitOn '\n' with
        | nil => exact absurd hsplit (List.splitOn_ne_nil '\n' cs)
        | cons first rest =>
            have ih : ∀ l ∈ first :: rest, '\n' ∉ l := by
              rw [← hsplit]
              exact fun l hl => newline_not_mem_of_mem_splitOn hl
            rw [hsplit, List.modifyHead_cons, List.mem_cons] at h
            rcases h with rfl | h
            · rintro (_ | _)
              · exact hc (beq_self_eq_true '\n')
              · exact ih first (List.mem_cons_self ..) ‹_›
            · exact ih l (List.mem_cons_of_mem _ h)

/-- No line holds a newline. -/
theorem newline_not_mem_of_mem_lines {l : String} (h : l ∈ lines s) : '\n' ∉ l.toList := by
  obtain ⟨cs, hcs, rfl⟩ := List.mem_map.1 h
  rw [String.toList_ofList]
  exact newline_not_mem_of_mem_splitOn hcs

/-- The first line of a text and what is behind it. -/
theorem exists_of_lines_eq_cons {first : String} {rest : List String}
    (h : lines s = first :: rest) : '\n' ∉ first.toList ∧
      (rest = [] ∧ s = first ∨ ∃ b, s = first ++ "\n" ++ b ∧ lines b = rest) := by
  have hfirst : '\n' ∉ first.toList := newline_not_mem_of_mem_lines (by rw [h]; simp)
  refine ⟨hfirst, ?_⟩
  have hs := intercalate_lines s
  rw [h] at hs
  by_cases hrest : rest = []
  · rw [hrest, String.intercalate_singleton] at hs
    exact .inl ⟨hrest, hs.symm⟩
  · rw [String.intercalate_cons_of_ne_nil hrest] at hs
    refine .inr ⟨"\n".intercalate rest, hs.symm, ?_⟩
    rw [← hs, lines_append_newline, lines_eq_singleton hfirst] at h
    exact (List.cons.inj h).2

/-- A text goes on with the last line of what stands before it. -/
theorem lines_append {b last first : String} {rest : List String}
    (hb : lines b = first :: rest) : ∀ {front : List String} {a : String},
      lines a = front ++ [last] → lines (a ++ b) = front ++ (last ++ first) :: rest
  | [], a, ha => by
      obtain ⟨hlast, ⟨-, rfl⟩ | ⟨a', rfl, ha'⟩⟩ := exists_of_lines_eq_cons ha
      · obtain ⟨hfirst, ⟨rfl, rfl⟩ | ⟨b', rfl, rfl⟩⟩ := exists_of_lines_eq_cons hb
        · exact lines_eq_singleton (by simp [hlast, hfirst])
        · rw [← String.append_assoc, ← String.append_assoc, lines_append_newline,
            lines_eq_singleton (by simp [hlast, hfirst])]
          rfl
      · exact absurd ha' (lines_ne_nil a')
  | line :: front, a, ha => by
      obtain ⟨hline, ⟨hnil, -⟩ | ⟨a', rfl, ha'⟩⟩ := exists_of_lines_eq_cons ha
      · exact absurd hnil (by simp)
      · rw [String.append_assoc, lines_append_newline, lines_eq_singleton hline,
          lines_append hb ha']
        rfl

/-! ## One line -/

@[simp] theorem indentLine_empty (p : String) : indentLine p "" = "" := if_pos rfl

theorem times_add (d k : Nat) (s : String) : times (d + k) s = times d s ++ times k s := by
  rw [times, ← List.replicate_append_replicate, String.join_append]
  rfl

theorem times_eq_empty_iff {n : Nat} {s : String} : times n s = "" ↔ n = 0 ∨ s = "" := by
  induction n with
  | zero => exact iff_of_true rfl (.inl rfl)
  | succ n ih =>
      rw [times_succ, String.append_eq_empty_iff, ih]
      constructor
      · exact fun h => .inr h.1
      · rintro (h | h)
        · cases h
        · exact ⟨h, .inr h⟩

theorem not_mem_times {c : Char} {s : String} (h : c ∉ s.toList) (n : Nat) :
    c ∉ (times n s).toList := by
  intro hmem
  rw [times, String.toList_join, List.mem_flatMap] at hmem
  obtain ⟨s', hs', hmem⟩ := hmem
  obtain ⟨_, rfl⟩ := List.mem_replicate.1 hs'
  exact h hmem

theorem newline_not_mem_indentLine {l : String} (hp : '\n' ∉ p.toList) (hl : '\n' ∉ l.toList) :
    '\n' ∉ (indentLine p l).toList := by
  by_cases h : l = ""
  · rw [indentLine, if_pos h]
    exact fun hmem => nomatch hmem
  · rw [indentLine, if_neg h, String.toList_append, List.mem_append]
    exact fun hmem => hmem.elim hp hl

/-- Indenting a line twice puts both texts in front of it: it is not empty after the first time
either. -/
theorem indentLine_indentLine (p q l : String) :
    indentLine p (indentLine q l) = indentLine (p ++ q) l := by
  by_cases h : l = ""
  · rw [h, indentLine_empty, indentLine_empty, indentLine_empty]
  · have hq : q ++ l ≠ "" := by
      intro hempty
      have hchars := congrArg String.toList hempty
      rw [String.toList_append] at hchars
      exact h (String.toList_inj.1 (List.append_eq_nil_iff.1 hchars).2)
    rw [indentLine, indentLine, if_neg h, if_neg hq, indentLine, if_neg h, String.append_assoc]

/-! ## Texts behind each other -/

theorem indentLines_empty (p : String) : indentLines p "" = "" := rfl

theorem indentLines_append_newline (p a b : String) :
    indentLines p (a ++ "\n" ++ b) = indentLines p a ++ "\n" ++ indentLines p b := by
  rw [indentLines, lines_append_newline, List.map_append,
    String.intercalate_append_of_ne_nil (mt List.map_eq_nil_iff.1 (lines_ne_nil a))
      (mt List.map_eq_nil_iff.1 (lines_ne_nil b))]
  rfl

/-- A line and the newline behind it. -/
theorem indentLines_line {l : String} (h : '\n' ∉ l.toList) :
    indentLines p (l ++ "\n") = indentLine p l ++ "\n" := by
  have hempty : l ++ "\n" = l ++ "\n" ++ "" := String.append_empty.symm
  rw [hempty, indentLines_append_newline, indentLines_empty, String.append_empty, indentLines,
    lines_eq_singleton h, List.map_singleton, String.intercalate_singleton]

/-- What stands behind a text that ends in a newline is indented by itself. -/
theorem indentLines_append {a : String} (h : IsClosed a) (p b : String) :
    indentLines p (a ++ b) = indentLines p a ++ indentLines p b := by
  rcases h with rfl | ⟨a, rfl⟩
  · rw [indentLines_empty, String.empty_append, String.empty_append]
  · have hempty : a ++ "\n" = a ++ "\n" ++ "" := String.append_empty.symm
    rw [indentLines_append_newline, hempty, indentLines_append_newline, indentLines_empty,
      String.append_empty]

theorem IsClosed.append {a b : String} (ha : IsClosed a) (hb : IsClosed b) : IsClosed (a ++ b) := by
  rcases hb with rfl | ⟨b, rfl⟩
  · rwa [String.append_empty]
  · exact .inr ⟨a ++ b, (String.append_assoc ..).symm⟩

end Polyglot.Text
