import Polyglot.Proofs.Brackets.Text
import Polyglot.Proofs.Text.Indented

/-!
# Texts on one line

A text without a newline stays one line wherever it is written. What writes a text between quotes
takes the newlines out of it.

* `Text.isLine_append`, `Text.isLine_intercalate`, `Text.isLine_join` : texts that are put together.
* `Text.isLine_quoted`, `Text.isLine_fString`, `Text.isLine_template` : the three ways to write any
  text on one line.
-/

set_option autoImplicit false

namespace Polyglot.Text

/-- A text without a newline. -/
def IsLine (s : String) : Prop := '\n' ∉ s.toList

instance (s : String) : Decidable (IsLine s) := inferInstanceAs (Decidable ('\n' ∉ s.toList))

@[simp] theorem isLine_append {a b : String} : IsLine (a ++ b) ↔ IsLine a ∧ IsLine b := by
  simp [IsLine, not_or]

theorem isLine_join {ss : List String} : IsLine (String.join ss) ↔ ∀ s ∈ ss, IsLine s := by
  simp [IsLine, String.toList_join]

/-- Texts between separators without a newline. -/
theorem isLine_intercalate {sep : String} (hsep : IsLine sep) {ss : List String} :
    IsLine (sep.intercalate ss) ↔ ∀ s ∈ ss, IsLine s := by
  induction ss with
  | nil => simp [IsLine]
  | cons s ss ih =>
      by_cases hnil : ss = []
      · simp [hnil]
      · rw [String.intercalate_cons_of_ne_nil hnil, isLine_append, isLine_append, ih,
          List.forall_mem_cons]
        simp [hsep]

theorem isLine_int (n : Int) : IsLine (toString n) := by
  intro hmem
  rcases isDigit_of_mem_int hmem with h | h
  · exact absurd h (by decide)
  · exact absurd h (by decide)

/-! ## Texts between quotes -/

theorem isLine_quoted (s : String) : IsLine (Quoted.encode s) := fun hmem =>
  absurd (Quoted.not_isControl_of_mem_encode hmem) (by decide)

theorem newline_not_mem_fString_escape (c : Char) : '\n' ∉ FString.escape c := by
  unfold FString.escape
  iterate 7
    split
    · decide
  · rename_i hnewline _ _ _ _
    simpa using Ne.symm hnewline

theorem isLine_fString (s : String) : IsLine (FString.encode s) := by
  intro hmem
  rw [FString.encode, String.toList_ofList, List.mem_flatMap] at hmem
  obtain ⟨c, -, hmem⟩ := hmem
  exact newline_not_mem_fString_escape c hmem

theorem newline_not_mem_template_escape (c : Char) : '\n' ∉ Template.escape c := by
  unfold Template.escape
  iterate 6
    split
    · decide
  · rename_i hnewline _ _
    simpa using Ne.symm hnewline

theorem isLine_template (s : String) : IsLine (Template.encode s) := by
  intro hmem
  rw [Template.encode, String.toList_ofList, List.mem_flatMap] at hmem
  obtain ⟨c, -, hmem⟩ := hmem
  exact newline_not_mem_template_escape c hmem

end Polyglot.Text
