/-!
# Names

The names that programs give to variables, properties and functions. A name is an identifier and
none of the words that the output languages use for themselves in expressions.

* `isWordChar_of_mem` : an identifier is one run of word characters.
-/

set_option autoImplicit false

namespace Polyglot

/-- A letter of the ASCII range or an underscore. -/
def isLetter (c : Char) : Bool := c.isAlpha || c == '_'

/-- What an identifier goes on with. -/
def isWordChar (c : Char) : Bool := c.isAlphanum || c == '_'

/-- Whether a text is a letter followed by word characters. -/
def isIdentifier (s : String) : Bool :=
  match s.toList with
  | [] => false
  | c :: cs => isLetter c && cs.all isWordChar

/-- Words that stand for constants and operators in some output language. -/
def reservedWords : List String :=
  ["True", "False", "None", "true", "false", "null", "not", "and", "or", "bool"]

/-- An identifier that no output language reserves in expressions. -/
structure IsName (s : String) : Prop where
  identifier : isIdentifier s = true
  free : s ∉ reservedWords

instance (s : String) : Decidable (IsName s) :=
  decidable_of_iff (isIdentifier s = true ∧ s ∉ reservedWords)
    ⟨fun h => ⟨h.1, h.2⟩, fun h => ⟨h.1, h.2⟩⟩

theorem IsName.ne_not {s : String} (h : IsName s) : s ≠ "not" := by
  rintro rfl
  exact h.free (by decide)

theorem IsName.ne_bool {s : String} (h : IsName s) : s ≠ "bool" := by
  rintro rfl
  exact h.free (by decide)

theorem isWordChar_of_isLetter {c : Char} (h : isLetter c = true) : isWordChar c = true := by
  simp only [isLetter, isWordChar, Char.isAlphanum, Bool.or_eq_true, beq_iff_eq] at h ⊢
  rcases h with h | h
  · exact .inl (.inl h)
  · exact .inr h

theorem exists_letter_of_isIdentifier {s : String} (h : isIdentifier s = true) :
    ∃ c cs, s.toList = c :: cs ∧ isLetter c = true := by
  unfold isIdentifier at h
  split at h
  · cases h
  · rename_i c cs hs
    simp only [Bool.and_eq_true] at h
    exact ⟨c, cs, hs, h.1⟩

theorem isWordChar_of_mem {s : String} (h : isIdentifier s = true) :
    ∀ c ∈ s.toList, isWordChar c = true := by
  intro c hc
  unfold isIdentifier at h
  split at h
  · cases h
  · rename_i d ds hs
    simp only [Bool.and_eq_true, List.all_eq_true] at h
    rw [hs, List.mem_cons] at hc
    rcases hc with rfl | hc
    · exact isWordChar_of_isLetter h.1
    · exact h.2 c hc

end Polyglot
