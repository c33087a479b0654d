/-!
# Blank characters

The characters with the Unicode property `White_Space`, and the removal of those that end a text.

* `trimEnd_append_blank` : what is removed at the end of a text does not depend on how much
  of it there is.
-/

set_option autoImplicit false

namespace Polyglot.Text

/-- Code point ranges of the Unicode property `White_Space`, both ends included. -/
def blankRanges : List (Nat × Nat) :=
  [(0x09, 0x0d), (0x20, 0x20), (0x85, 0x85), (0xa0, 0xa0), (0x1680, 0x1680), (0x2000, 0x200a),
   (0x2028, 0x2029), (0x202f, 0x202f), (0x205f, 0x205f), (0x3000, 0x3000)]

/-- Whether a code point lies in one of the ranges. -/
def inRanges (ranges : List (Nat × Nat)) (n : Nat) : Bool :=
  ranges.any fun r => r.1 ≤ n && n ≤ r.2

/-- Whether a character has the property `White_Space`. -/
def isBlank (c : Char) : Bool := inRanges blankRanges c.toNat

/-- Drops the blanks at the end of a list of characters. -/
def dropBlankEnd (cs : List Char) : List Char := (cs.reverse.dropWhile isBlank).reverse

/-- A text without the blanks at its end. -/
def trimEnd (s : String) : String := String.ofList (dropBlankEnd s.toList)

theorem trimEnd_append_blank (s : String) {c : Char} (h : isBlank c = true) :
    trimEnd (s.push c) = trimEnd s := by
  simp [trimEnd, dropBlankEnd, h]

end Polyglot.Text
