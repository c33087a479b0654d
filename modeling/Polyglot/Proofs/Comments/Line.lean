import Mathlib.Data.List.Induction
import Polyglot.Proofs.Text.CodeLine
import Polyglot.Proofs.Text.Occurrences
import Polyglot.Target

/-!
# Lines of comments

A line that is no code is blank or, behind its blanks, begins with the mark of a comment. Blanks at
the end of a text, whole lines of them included, do not change whether its lines are of that kind.

* `Target.commentMark`, `Text.IsComment` : the mark, and lines without code.
* `Text.isComment_trimEnd` : a line without the blanks at its end.
* `Text.forall_lines_trimEnd` : a text without the blanks at its end.
* `Text.forall_lines_append_mark` : a text behind one mark.
-/

set_option autoImplicit false

namespace Polyglot

/-- What a comment up to the end of its line begins with. -/
def Target.commentMark : Target → String
  | .python => "#"
  | .typescript | .php => "//"

namespace Text

/-! ## The end of a text -/

/-- Removing blanks at the end is removing them one by one. -/
theorem trimEnd_iff {P : String → Prop}
    (h : ∀ s c, isBlank c = true → (P (s.push c) ↔ P s)) (s : String) : P (trimEnd s) ↔ P s := by
  obtain ⟨cs, rfl⟩ : ∃ cs, s = String.ofList cs := ⟨s.toList, String.ofList_toList.symm⟩
  induction cs using List.reverseRecOn with
  | nil => rfl
  | append_singleton cs c ih =>
      have hpush : String.ofList (cs ++ [c]) = (String.ofList cs).push c :=
        String.toList_inj.1 (by simp)
      rw [hpush]
      cases hblank : isBlank c with
      | true => rw [trimEnd_append_blank _ hblank, h _ _ hblank, ih]
      | false =>
          have hkept : trimEnd ((String.ofList cs).push c) = (String.ofList cs).push c := by
            rw [← hpush]
            simp [trimEnd, dropBlankEnd, hblank]
          rw [hkept]

/-- One more character ends the last line or goes on with it. -/
theorem lines_push (s : String) (c : Char) : ∃ front last, lines s = front ++ [last] ∧
    lines (s.push c) = if c = '\n' then front ++ [last, ""] else front ++ [last.push c] := by
  obtain ⟨front, last, hs⟩ := (List.eq_nil_or_concat' (lines s)).resolve_left (lines_ne_nil s)
  refine ⟨front, last, hs, ?_⟩
  have hpush : s.push c = s ++ String.singleton c := String.toList_inj.1 (by simp)
  by_cases hc : c = '\n'
  · subst hc
    have hline : lines (String.singleton '\n') = ["", ""] := by decide
    rw [if_pos rfl, hpush, lines_append hline hs, String.append_empty]
  · have hline : lines (String.singleton c) = [String.singleton c] :=
      lines_eq_singleton (by simp [Ne.symm hc])
    have hlast : last ++ String.singleton c = last.push c := String.toList_inj.1 (by simp)
    rw [if_neg hc, hpush, lines_append hline hs, hlast]

/-! ## Lines without code -/

/-- The line is blank or, behind its blanks, begins with the mark of a comment. -/
def IsComment (t : Target) (l : String) : Prop :=
  l.toList.dropWhile isBlank = [] ∨ t.commentMark.toList <+: l.toList.dropWhile isBlank

instance (t : Target) (l : String) : Decidable (IsComment t l) :=
  inferInstanceAs (Decidable (_ ∨ _))

variable {t : Target}

theorem isComment_empty : IsComment t "" := .inl rfl

/-- No character of a mark is blank. -/
theorem isBlank_of_mem_commentMark : ∀ c ∈ t.commentMark.toList, isBlank c = false := by
  have hall : (t.commentMark.toList.all fun c => !isBlank c) = true := by
    cases t <;> rfl
  simpa using hall

/-- A mark has a first character. -/
theorem exists_commentMark (t : Target) : ∃ c cs, t.commentMark.toList = c :: cs := by
  cases t <;> exact ⟨_, _, rfl⟩

/-- What stands behind a mark is a comment. -/
theorem isComment_mark (l : String) : IsComment t (t.commentMark ++ l) := by
  obtain ⟨c, cs, hmark⟩ := exists_commentMark t
  have hblank : isBlank c = false := isBlank_of_mem_commentMark (t := t) c (by simp [hmark])
  refine .inr ?_
  rw [String.toList_append, hmark, List.cons_append, List.dropWhile_cons_of_neg (by simp [hblank])]
  exact List.prefix_append (c :: cs) l.toList

/-- A blank at the end of a line is no code and ends no mark. -/
theorem isComment_push {c : Char} (hc : isBlank c = true) (l : String) :
    IsComment t (l.push c) ↔ IsComment t l := by
  have hmark : c ∉ t.commentMark.toList := fun hmem => by
    rw [isBlank_of_mem_commentMark c hmem] at hc
    cases hc
  rw [IsComment, IsComment, String.toList_push, List.dropWhile_append]
  cases hdrop : l.toList.dropWhile isBlank with
  | nil => simp [hc]
  | cons d ds =>
      have hwhole : t.commentMark.toList ≠ d :: ds ++ [c] := fun h => hmark (by simp [h])
      simp only [List.isEmpty_cons, Bool.false_eq_true, if_false, List.prefix_concat_iff, hwhole]
      simp

/-- A line is of the same kind without the blanks at its end. -/
theorem isComment_trimEnd (l : String) : IsComment t (trimEnd l) ↔ IsComment t l :=
  trimEnd_iff (fun l _ hc => isComment_push hc l) l

/-- The lines of a text are of the same kind without the blanks at the end of the text. -/
theorem forall_lines_trimEnd (s : String) :
    (∀ l ∈ lines (trimEnd s), IsComment t l) ↔ ∀ l ∈ lines s, IsComment t l := by
  refine trimEnd_iff (P := fun s => ∀ l ∈ lines s, IsComment t l) (fun s c hc => ?_) s
  obtain ⟨front, last, hs, hpush⟩ := lines_push s c
  rw [hs, hpush]
  split
  · simp [isComment_empty, or_imp, forall_and]
  · simp [isComment_push hc, or_imp, forall_and]

/-- A text behind a mark: the mark stands in front of its first line only. -/
theorem forall_lines_append_mark (s : String) :
    (∀ l ∈ lines (t.commentMark ++ " " ++ s), IsComment t l) ↔
      ∀ l ∈ (lines s).tail, IsComment t l := by
  obtain ⟨first, rest, hs⟩ := List.exists_cons_of_ne_nil (lines_ne_nil s)
  have hmark : lines (t.commentMark ++ " ") = [] ++ [t.commentMark ++ " "] := by
    cases t <;> decide
  rw [lines_append hs hmark, hs, List.nil_append, List.forall_mem_cons, List.tail_cons]
  rw [String.append_assoc]
  exact and_iff_right (isComment_mark _)

end Text

end Polyglot
