import Polyglot.Proofs.Name
import Polyglot.Proofs.Text.Indented
import Polyglot.Text.Blank

/-!
# Lines of Python code

A line of Python code is neither blank nor a comment: it has a character that is not blank, and the
first one is not `#`.

* `Text.isCodeLine`, `Text.StartsWithCode` : such a line, and a text whose first line is one.
* `Text.StartsWithCode.append` : only the beginning of a text decides.
* `Text.StartsWithCode.of_isIdentifier` : identifiers are code.
-/

set_option autoImplicit false

namespace Polyglot.Text

/-- Whether a line is neither blank nor a comment. -/
def isCodeLine (l : String) : Bool :=
  (l.toList.find? fun c => !isBlank c).any fun c => c != '#'

/-- The first line of the text is neither blank nor a comment. -/
def StartsWithCode (s : String) : Prop := (lines s).head?.any isCodeLine = true

instance (s : String) : Decidable (StartsWithCode s) :=
  inferInstanceAs (Decidable ((lines s).head?.any isCodeLine = true))

theorem isCodeLine_append {a : String} (h : isCodeLine a = true) (b : String) :
    isCodeLine (a ++ b) = true := by
  obtain ⟨c, hc, hcomment⟩ := (Option.any_eq_true _ _).1 h
  rw [isCodeLine, String.toList_append, List.find?_append, hc]
  exact hcomment

/-- What stands behind a text goes on with its last line; the first line stays, or is longer. -/
theorem exists_splitOn_append (ds : List Char) : ∀ {cs first : List Char} {rest : List (List Char)},
    cs.splitOn '\n' = first :: rest →
      ∃ more rest', (cs ++ ds).splitOn '\n' = (first ++ more) :: rest'
  | [], first, rest, h => by
      obtain ⟨rfl, -⟩ := List.cons.inj ((List.splitOn_nil '\n').symm.trans h)
      exact List.exists_cons_of_ne_nil (List.splitOn_ne_nil '\n' ds)
  | c :: cs, first, rest, h => by
      rw [List.splitOn_cons_eq_if_modifyHead] at h
      rw [List.cons_append, List.splitOn_cons_eq_if_modifyHead]
      by_cases hc : (c == '\n') = true
      · rw [if_pos hc] at h ⊢
        obtain ⟨rfl, -⟩ := List.cons.inj h
        exact ⟨[], _, rfl⟩
      · rw [if_neg hc] at h ⊢
        obtain ⟨first', rest', hsplit⟩ :=
          List.exists_cons_of_ne_nil (List.splitOn_ne_nil '\n' cs)
        rw [hsplit, List.modifyHead_cons] at h
        obtain ⟨rfl, -⟩ := List.cons.inj h
        obtain ⟨more, rest'', happend⟩ := exists_splitOn_append ds hsplit
        rw [happend, List.modifyHead_cons]
        exact ⟨more, rest'', rfl⟩

/-! ## Ends of lines -/

theorem dropBlankEnd_cons {c : Char} (h : isBlank c = false) (cs : List Char) :
    dropBlankEnd (c :: cs) = c :: dropBlankEnd cs := by
  have hdrop : [c].dropWhile isBlank = [c] := by
    rw [List.dropWhile_cons_of_neg (by rw [h]; exact Bool.false_ne_true)]
  rw [dropBlankEnd, List.reverse_cons, List.dropWhile_append, hdrop, dropBlankEnd]
  split
  · rename_i hempty
    rw [List.isEmpty_iff.1 hempty]
    rfl
  · rw [List.reverse_append]
    rfl

theorem mem_of_mem_dropBlankEnd {c : Char} {cs : List Char} (h : c ∈ dropBlankEnd cs) : c ∈ cs :=
  List.mem_reverse.1 ((List.dropWhile_sublist isBlank).mem (List.mem_reverse.1 h))

namespace StartsWithCode

variable {a : String}

theorem append (h : StartsWithCode a) (b : String) : StartsWithCode (a ++ b) := by
  obtain ⟨first, rest, hsplit⟩ := List.exists_cons_of_ne_nil (List.splitOn_ne_nil '\n' a.toList)
  obtain ⟨more, rest', happend⟩ := exists_splitOn_append b.toList hsplit
  rw [StartsWithCode, lines, hsplit] at h
  rw [StartsWithCode, lines, String.toList_append, happend, List.map_cons, String.ofList_append]
  exact isCodeLine_append h _

/-- The first character of a text is enough if it is neither blank nor `#`. -/
theorem of_head {c : Char} {cs : List Char} (ha : a.toList = c :: cs) (hblank : isBlank c = false)
    (hcomment : c ≠ '#') : StartsWithCode a := by
  have hsplit : a = String.ofList [c] ++ String.ofList cs := by
    rw [← String.ofList_append, List.singleton_append, ← ha, String.ofList_toList]
  have hnewline : '\n' ∉ (String.ofList [c]).toList := by
    rw [String.toList_ofList, List.mem_singleton]
    rintro rfl
    exact absurd hblank (by decide)
  have hfirst : StartsWithCode (String.ofList [c]) := by
    rw [StartsWithCode, lines_eq_singleton hnewline]
    simp [isCodeLine, hblank, hcomment]
  rw [hsplit]
  exact hfirst.append _

end StartsWithCode

/-! ## Identifiers -/

theorem toNat_of_isWordChar {c : Char} (h : isWordChar c = true) :
    0x23 < c.toNat ∧ c.toNat < 0x85 := by
  delta isWordChar Char.isAlphanum Char.isAlpha Char.isUpper Char.isLower Char.isDigit at h
  simp only [Bool.or_eq_true, Bool.and_eq_true, decide_eq_true_eq, beq_iff_eq, ge_iff_le,
    UInt32.le_iff_toNat_le] at h
  rcases h with ((h | h) | h) | rfl
  · exact ⟨Nat.lt_of_lt_of_le (by decide) h.1, Nat.lt_of_le_of_lt h.2 (by decide)⟩
  · exact ⟨Nat.lt_of_lt_of_le (by decide) h.1, Nat.lt_of_le_of_lt h.2 (by decide)⟩
  · exact ⟨Nat.lt_of_lt_of_le (by decide) h.1, Nat.lt_of_le_of_lt h.2 (by decide)⟩
  · decide

/-- No range of blanks lies between the space and the first control characters behind ASCII. -/
theorem isBlank_eq_false {c : Char} (hlow : 0x20 < c.toNat) (hhigh : c.toNat < 0x85) :
    isBlank c = false := by
  simp only [isBlank, inRanges, blankRanges, List.any_cons, List.any_nil, Bool.or_false,
    Bool.or_eq_false_iff, Bool.and_eq_false_imp, decide_eq_true_eq, decide_eq_false_iff_not,
    Nat.not_le]
  omega

/-- A text that begins with a word character begins with code. -/
theorem StartsWithCode.of_isWordChar {s : String} {c : Char} {cs : List Char}
    (hs : s.toList = c :: cs) (hc : isWordChar c = true) : StartsWithCode s := by
  obtain ⟨hlow, hhigh⟩ := toNat_of_isWordChar hc
  refine .of_head hs (isBlank_eq_false (by omega) hhigh) ?_
  rintro rfl
  exact absurd hlow (by decide)

/-- An identifier is code. -/
theorem StartsWithCode.of_isIdentifier {s : String} (h : isIdentifier s = true) :
    StartsWithCode s := by
  obtain ⟨c, cs, hs, hc⟩ := exists_letter_of_isIdentifier h
  exact .of_isWordChar hs (isWordChar_of_isLetter hc)

end Polyglot.Text
