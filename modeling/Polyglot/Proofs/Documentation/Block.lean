import Polyglot.Proofs.Layout.Depth
import Polyglot.Proofs.Text.Occurrences
import Polyglot.Stmt.Comment
import Polyglot.Target

/-!
# Documentation texts

A documentation is written between an opening and a closing text, with its texts as they are. The
closing text stands inside exactly if it stands in one of the texts: nothing escapes it.

* `Layout.documentation`, `Target.docOpen`, `Target.docClose` : documentations in each language.
* `Layout.writeAll_documentation` : what is written.
* `Target.onlyAtEnd_docInner` : **whether the closing text stands at the end only.**
* `Target.readTo_docInner` : what is read from the opening text on.
-/

set_option autoImplicit false

namespace Polyglot

open Text

namespace Target

/-- What a documentation begins with. -/
def docOpen : Target → String
  | .python => "\"\"\""
  | .typescript | .php => "/**"

/-- What a documentation ends with. -/
def docClose : Target → String
  | .python => "\"\"\""
  | .typescript | .php => "*/"

/-- The character that the closing text begins with. -/
def docMark : Target → Char
  | .python => '"'
  | .typescript | .php => '*'

/-- A text of a documentation as it stands on its line or lines. -/
def docText (text : String) : Target → String
  | .python => text
  | .typescript | .php => Layout.docLine text

/-- What stands in front of the closing text on its line. -/
def docGap : Target → String
  | .python => ""
  | .typescript | .php => " "

/-- What is written between the opening and the closing text, with `p` in front of the lines. -/
def docInner (t : Target) (p : String) (texts : List String) : String :=
  "\n" ++ String.join ((texts.map fun s => indentLines p (t.docText s)).map (· ++ "\n")) ++
    (p ++ t.docGap)

end Target

/-- A documentation in one language, if there is anything in it. -/
def Layout.documentation (texts : List String) : Target → List Layout
  | .python => docString texts
  | .typescript | .php => docBlock texts

/-! ## What is written -/

namespace Layout

/-- Lines for texts, each with its newline. -/
theorem writeAll_map_line (indent : String) (depth : Nat) (f : String → String)
    (texts : List String) : writeAll indent depth (texts.map fun s => .line (f s)) = String.join
      ((texts.map fun s => indentLines (times depth indent) (f s)).map (· ++ "\n")) := by
  induction texts with
  | nil => rfl
  | cons text texts ih =>
      rw [List.map_cons, List.map_cons, List.map_cons, String.join_cons, writeAll, write_line, ih]

theorem documentation_eq (t : Target) {texts : List String} (hne : texts ≠ []) :
    documentation texts t = .line t.docOpen ::
      (texts.map (fun s => .line (t.docText s)) ++ [.line (t.docGap ++ t.docClose)]) := by
  obtain ⟨text, rest, rfl⟩ := List.exists_cons_of_ne_nil hne
  cases t <;> rfl

/-- A documentation with something in it: the opening text, what is inside, and the closing text. -/
theorem writeAll_documentation (indent : String) (depth : Nat) (t : Target) {texts : List String}
    (hne : texts ≠ []) : writeAll indent depth (documentation texts t) =
      times depth indent ++ t.docOpen ++ t.docInner (times depth indent) texts ++ t.docClose ++
        "\n" := by
  have hopen : (Layout.line t.docOpen).write indent depth =
      times depth indent ++ t.docOpen ++ "\n" := by
    cases t <;> exact (write_line_of_not_mem (by decide) indent depth).trans (if_neg (by decide))
  have hclose : (Layout.line (t.docGap ++ t.docClose)).write indent depth =
      times depth indent ++ (t.docGap ++ t.docClose) ++ "\n" := by
    cases t <;> exact (write_line_of_not_mem (by decide) indent depth).trans (if_neg (by decide))
  rw [documentation_eq t hne, writeAll, writeAll_append, writeAll_map_line, writeAll, writeAll_nil,
    hopen, hclose, Target.docInner, String.append_empty]
  simp only [String.append_assoc]

end Layout

/-! ## Where the closing text stands -/

namespace Target

variable {t : Target} {p : String} {texts : List String}

theorem isLine_docClose (t : Target) : IsLine t.docClose := by
  cases t <;> decide

/-- The closing text begins with its mark. Without its last character it does not close anything. -/
theorem exists_docClose (t : Target) : ∃ cs stem c, t.docClose.toList = t.docMark :: cs ∧
    t.docClose = stem.push c ∧ ¬ StandsIn t.docClose (t.docGap ++ stem) := by
  cases t with
  | python => exact ⟨['"', '"'], "\"\"", '"', by decide, by decide, by decide⟩
  | typescript | php => exact ⟨['/'], "*", '/', by decide, by decide, by decide⟩

/-- The star in front of a text is followed by a blank. -/
theorem standsIn_docLine (text : String) :
    StandsIn "*/" (Layout.docLine text) ↔ StandsIn "*/" text := by
  unfold Layout.docLine
  by_cases hempty : text = ""
  · rw [hempty, if_pos rfl]
    decide
  · rw [if_neg hempty, standsIn_iff_isInfix, standsIn_iff_isInfix, String.toList_append]
    simp [List.infix_cons_iff, List.cons_prefix_cons]

theorem standsIn_docText (t : Target) (text : String) :
    StandsIn t.docClose (t.docText text) ↔ StandsIn t.docClose text := by
  cases t with
  | python => rfl
  | typescript | php => exact standsIn_docLine text

/-- **The closing text stands inside a documentation just if it stands in one of the texts**, where
the indentation does not hold the character that it begins with. -/
theorem onlyAtEnd_docInner (hp : t.docMark ∉ p.toList) :
    OnlyAtEnd t.docClose (t.docInner p texts ++ t.docClose) ↔
      ∀ text ∈ texts, ¬ StandsIn t.docClose text := by
  obtain ⟨cs, stem, c, hchars, hclose, hstem⟩ := t.exists_docClose
  have hline := t.isLine_docClose
  have hne : t.docClose ≠ "" := by
    intro h
    rw [h] at hchars
    cases hchars
  have hnone : ¬ StandsIn t.docClose "" := fun h => hstem (by simpa using h.append_right _)
  -- Without the last character of the closing text, its lines are those of the texts and one more.
  have hpush : t.docInner p texts ++ t.docClose = (t.docInner p texts ++ stem).push c := by
    conv_lhs => rw [hclose]
    exact String.toList_inj.1 (by simp)
  have hsplit : t.docInner p texts ++ stem = "" ++ "\n" ++
      (String.join ((texts.map fun s => indentLines p (t.docText s)).map (· ++ "\n")) ++
        (p ++ (t.docGap ++ stem))) := by
    rw [docInner, String.empty_append]
    simp only [String.append_assoc]
  rw [hpush, onlyAtEnd_push, hsplit, standsIn_append_newline hline hne,
    standsIn_join_append hline hne, standsIn_append_of_not_mem hchars hp]
  simp [hnone, hstem, standsIn_indentLines hline hchars hp, standsIn_docText]

/-- What is inside a documentation ends in a line that only indents the closing text, so it does not
end in a backslash. -/
theorem getLast?_docInner (hp : '\\' ∉ p.toList) :
    (t.docInner p texts).toList.getLast? ≠ some '\\' := by
  have hjoin (ls : List String) : IsClosed (String.join (ls.map (· ++ "\n"))) := by
    induction ls with
    | nil => exact .inl rfl
    | cons l ls ih =>
        rw [List.map_cons, String.join_cons]
        exact .append (.inr ⟨l, rfl⟩) ih
  obtain ⟨front, hfront⟩ : ∃ front, "\n" ++ String.join
      ((texts.map fun s => indentLines p (t.docText s)).map (· ++ "\n")) = front ++ "\n" := by
    rcases hjoin (texts.map fun s => indentLines p (t.docText s)) with h | ⟨front, h⟩
    · exact ⟨"", by rw [h]; rfl⟩
    · exact ⟨"\n" ++ front, by rw [h, String.append_assoc]⟩
  have hgap : '\\' ∉ t.docGap.toList := by
    cases t <;> decide
  have hchars : (t.docInner p texts).toList =
      front.toList ++ '\n' :: (p.toList ++ t.docGap.toList) := by
    rw [docInner, hfront]
    simp
  rw [hchars, List.getLast?_append_of_ne_nil _ (List.cons_ne_nil _ _)]
  intro hlast
  have hmem := List.mem_of_getLast? hlast
  simp [hp, hgap] at hmem

/-- **A documentation is read up to its end**, from its opening text on, if no text in it closes
it. -/
theorem readTo_docInner (hmark : t.docMark ∉ p.toList) (hescape : '\\' ∉ p.toList)
    (h : ∀ text ∈ texts, ¬ StandsIn t.docClose text) (rest : String) :
    readTo (t = .python) t.docClose.toList false
      (t.docInner p texts ++ t.docClose ++ rest).toList =
        some ((t.docInner p texts).toList, rest.toList) := by
  obtain ⟨cs, -, -, hchars, -, -⟩ := t.exists_docClose
  have honly := (onlyAtEnd_docInner hmark).2 h
  rw [String.toList_append, String.toList_append]
  refine readTo_append (by simp [hchars]) rest.toList (fun before after heq => ?_)
    (fun _ => getLast?_docInner hescape) (fun h => nomatch h)
  have hempty := honly (String.ofList before) (String.ofList after)
    (String.toList_inj.1 (by simpa using heq))
  simpa using congrArg String.toList hempty

end Target

end Polyglot
