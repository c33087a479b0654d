import Mathlib.Data.List.Forall2
import Polyglot.Proofs.Layout.Depth
import Polyglot.Proofs.Text.CodeLine
import Polyglot.Stmt.Comment

/-!
# Suites in a layout

Python opens a suite below a line that ends with a colon: the group of lines right behind it. Other
groups are lists of parameters.

* `Layout.HasCodeLine` : some line of a group, at its own depth, is neither blank nor a comment.
* `Layout.suitesAll` : the suites among some lines, at any depth, from top to bottom.
* `Layout.Opens` : some lines open the suites for the members of a list, and no others.
-/

set_option autoImplicit false

namespace Polyglot.Layout

/-! ## Code among lines -/

/-- Some line, not counting what is nested deeper, is neither blank nor a comment. -/
def HasCodeLine (ls : List Layout) : Prop :=
  ∃ text, .line text ∈ ls ∧ ∃ l ∈ Text.lines text, Text.isCodeLine l = true

/-- The first line of a text is enough. -/
theorem HasCodeLine.of_mem {ls : List Layout} {text : String} (h : Text.StartsWithCode text)
    (hmem : .line text ∈ ls) : HasCodeLine ls := by
  obtain ⟨l, hl, hcode⟩ := (Option.any_eq_true _ _).1 h
  exact ⟨text, hmem, l, List.mem_of_mem_head? hl, hcode⟩

theorem HasCodeLine.cons {text : String} (h : Text.StartsWithCode text) (ls : List Layout) :
    HasCodeLine (.line text :: ls) :=
  .of_mem h (List.mem_cons_self ..)

theorem HasCodeLine.concat {text : String} (h : Text.StartsWithCode text) (ls : List Layout) :
    HasCodeLine (ls ++ [.line text]) :=
  .of_mem h (List.mem_append_right ls (List.mem_singleton_self _))

theorem hasCodeLine_append {ls ks : List Layout} :
    HasCodeLine (ls ++ ks) ↔ HasCodeLine ls ∨ HasCodeLine ks := by
  constructor
  · rintro ⟨text, hmem, hcode⟩
    rcases List.mem_append.1 hmem with hmem | hmem
    · exact .inl ⟨text, hmem, hcode⟩
    · exact .inr ⟨text, hmem, hcode⟩
  · rintro (⟨text, hmem, hcode⟩ | ⟨text, hmem, hcode⟩)
    · exact ⟨text, List.mem_append_left ks hmem, hcode⟩
    · exact ⟨text, List.mem_append_right ls hmem, hcode⟩

/-- Groups of lines that are empty or have a line of code make such a group. -/
theorem eq_nil_or_hasCodeLine_append {ls ks : List Layout} (h : ls = [] ∨ HasCodeLine ls)
    (h' : ks = [] ∨ HasCodeLine ks) : ls ++ ks = [] ∨ HasCodeLine (ls ++ ks) := by
  rcases h with rfl | h
  · exact h'
  · exact .inr (hasCodeLine_append.2 (.inl h))

theorem not_hasCodeLine_nil : ¬ HasCodeLine [] := fun ⟨_, hmem, _⟩ => nomatch hmem

/-- A member of a list that writes a line of code lets all of them together write one. -/
theorem hasCodeLine_flatten_iff {β : Type} {hasCode : β → Bool} {bs : List β}
    {lss : List (List Layout)}
    (h : List.Forall₂ (fun b ls => HasCodeLine ls ↔ hasCode b = true) bs lss) :
    HasCodeLine lss.flatten ↔ bs.any hasCode = true := by
  induction h with
  | nil => exact iff_of_false not_hasCodeLine_nil Bool.false_ne_true
  | cons hb _ ih =>
      rw [List.flatten_cons, hasCodeLine_append, hb, ih, List.any_cons, Bool.or_eq_true]

theorem not_hasCodeLine_blank : ¬ HasCodeLine [blank] := by
  rintro ⟨text, hmem, l, hl, hcode⟩
  cases List.mem_singleton.1 hmem
  cases List.mem_singleton.1 hl
  exact absurd hcode (by decide)

/-- No line of a comment is code: the marker is still there when the blanks at the end of the line
are gone. -/
theorem not_hasCodeLine_marked (text : String) : ¬ HasCodeLine (marked "# " text) := by
  rintro ⟨shown, hmem, l, hl, hcode⟩
  obtain ⟨l', hl', hshown⟩ := List.mem_map.1 hmem
  obtain rfl : Text.trimEnd ("# " ++ l') = shown := Layout.line.inj hshown
  have hchars : (Text.trimEnd ("# " ++ l')).toList = '#' :: Text.dropBlankEnd (' ' :: l'.toList) := by
    rw [Text.trimEnd, String.toList_ofList, String.toList_append]
    exact Text.dropBlankEnd_cons (by decide) _
  have hnewline : '\n' ∉ (Text.trimEnd ("# " ++ l')).toList := by
    rw [hchars]
    rintro (_ | ⟨_, hmem⟩)
    rcases List.mem_cons.1 (Text.mem_of_mem_dropBlankEnd hmem) with hspace | hmem
    · cases hspace
    · exact Text.newline_not_mem_of_mem_lines hl' hmem
  rw [Text.lines_eq_singleton hnewline, List.mem_singleton] at hl
  subst hl
  have hmark : Text.isBlank '#' = false := by decide
  rw [Text.isCodeLine, hchars, List.find?_cons_of_pos (by rw [hmark]; rfl)] at hcode
  cases hcode

/-- A line behind a text that ends in a newline is a line of the whole text. -/
theorem mem_lines_of_isClosed {before : String} (h : Text.IsClosed before) {l : String}
    (hl : '\n' ∉ l.toList) (after : String) :
    l ∈ Text.lines (before ++ (l ++ "\n" ++ after)) := by
  have hmem : l ∈ Text.lines (l ++ "\n" ++ after) := by
    rw [Text.lines_append_newline, Text.lines_eq_singleton hl]
    exact List.mem_append_left _ (List.mem_singleton_self l)
  rcases h with rfl | ⟨before, rfl⟩
  · rwa [String.empty_append]
  · rw [Text.lines_append_newline]
    exact List.mem_append_right _ hmem

/-- A line of code among lines is, in the text that is written for them, a line of code behind the
indentation for their depth. -/
theorem HasCodeLine.exists_mem_lines {ls : List Layout} (h : HasCodeLine ls) {indent : String}
    (hindent : '\n' ∉ indent.toList) (depth : Nat) :
    ∃ l, Text.isCodeLine l = true ∧
      Text.times depth indent ++ l ∈ Text.lines (writeAll indent depth ls) := by
  obtain ⟨text, hmem, l, hl, hcode⟩ := h
  obtain ⟨above, below, rfl⟩ := List.append_of_mem hmem
  obtain ⟨before, after, hlines⟩ := List.append_of_mem hl
  refine ⟨l, hcode, ?_⟩
  have hne : l ≠ "" := by
    rintro rfl
    exact absurd hcode (by decide)
  have hnewline : '\n' ∉ (Text.times depth indent ++ l).toList := by
    rw [String.toList_append, List.mem_append, not_or]
    exact ⟨Text.not_mem_times hindent depth, Text.newline_not_mem_of_mem_lines hl⟩
  have hwritten : writeAll indent depth (above ++ .line text :: below) =
      (writeAll indent depth above ++ String.join (before.map (indented indent depth))) ++
        (Text.times depth indent ++ l ++ "\n" ++
          (String.join (after.map (indented indent depth)) ++ writeAll indent depth below)) := by
    rw [writeAll_append, writeAll, write, hlines, List.map_append, List.map_cons,
      String.join_append, String.join_cons, indented, if_neg hne]
    simp only [String.append_assoc]
  rw [hwritten]
  exact mem_lines_of_isClosed
    ((isClosed_writeAll indent depth above).append (isClosed_indentedAll indent depth before))
    hnewline _

/-! ## Suites -/

/-- Whether Python opens a suite right below. -/
def opensSuite : Layout → Bool
  | .line text => text.toList.getLast? == some ':'
  | .nest _ => false

mutual

/-- The suites in a piece of text; `below` says whether the line above it opens one. -/
def suites (below : Bool) : Layout → List (List Layout)
  | .line _ => []
  | .nest body => (if below then [body] else []) ++ suitesAll false body

def suitesAll (below : Bool) : List Layout → List (List Layout)
  | [] => []
  | l :: ls => l.suites below ++ suitesAll l.opensSuite ls

end

/-- The end of a line decides. -/
theorem opensSuite_append (head : String) {tail : String} (h : tail.toList ≠ []) :
    (line (head ++ tail)).opensSuite = (line tail).opensSuite := by
  rw [opensSuite, String.toList_append, List.getLast?_append_of_ne_nil _ h, opensSuite]

theorem opensSuite_append_colon (head : String) : (line (head ++ ":")).opensSuite = true :=
  opensSuite_append head (by decide)

theorem opensSuite_append_paren (head : String) : (line (head ++ "(")).opensSuite = false :=
  opensSuite_append head (by decide)

/-- Lines behind others see of them only whether the last one opens a suite. -/
theorem exists_suitesAll_append (ls : List Layout) (below : Bool) :
    ∃ below', ∀ ks, suitesAll below (ls ++ ks) = suitesAll below ls ++ suitesAll below' ks := by
  induction ls generalizing below with
  | nil => exact ⟨below, fun ks => rfl⟩
  | cons l ls ih =>
      obtain ⟨below', h⟩ := ih l.opensSuite
      refine ⟨below', fun ks => ?_⟩
      rw [List.cons_append, suitesAll, h, suitesAll, List.append_assoc]

/-! ## Lines that open given suites -/

variable {α : Type} {R : α → List Layout → Prop}

/-- Whatever stands above, the lines open one suite for each member of the list, in this order, and
no others; `R` says what is in the suite for a member. -/
def Opens (R : α → List Layout → Prop) (as : List α) (ls : List Layout) : Prop :=
  ∀ below, List.Forall₂ R as (suitesAll below ls)

namespace Opens

variable {as as' : List α} {ls ls' : List Layout}

theorem nil : Opens R [] [] := fun _ => .nil

theorem append (h : Opens R as ls) (h' : Opens R as' ls') : Opens R (as ++ as') (ls ++ ls') := by
  intro below
  obtain ⟨below', hsuites⟩ := exists_suitesAll_append ls below
  rw [hsuites]
  exact List.rel_append (h below) (h' below')

/-- Lines that open nothing make no difference at the end. -/
theorem append_nil (h : Opens R as ls) (h' : Opens R [] ls') : Opens R as (ls ++ ls') := by
  have happend := h.append h'
  rwa [List.append_nil] at happend

/-- One line opens nothing by itself. -/
theorem line (text : String) : Opens R [] [.line text] := fun _ => .nil

theorem lineIf (p : Prop) [Decidable p] (text : String) :
    Opens R [] (if p then [.line text] else []) := by
  split
  · exact line text
  · exact nil

theorem lines {ls : List Layout} (h : ∀ l ∈ ls, ∃ text, l = .line text) : Opens R [] ls := by
  induction ls with
  | nil => exact nil
  | cons l ls ih =>
      obtain ⟨text, rfl⟩ := h l (List.mem_cons_self ..)
      exact (line text).append (ih fun l' hl' => h l' (List.mem_cons_of_mem _ hl'))

theorem map_line {β : Type} (text : β → String) (bs : List β) :
    Opens R [] (bs.map fun b => .line (text b)) := by
  refine lines fun l hl => ?_
  obtain ⟨b, -, rfl⟩ := List.mem_map.1 hl
  exact ⟨text b, rfl⟩

/-- A head with its suite. -/
theorem suite {a : α} {head : String} {body : List Layout}
    (hhead : (Layout.line head).opensSuite = true) (ha : R a body) (h : Opens R as body) :
    Opens R (a :: as) [.line head, .nest body] := by
  intro below
  rw [suitesAll, suitesAll, suitesAll, hhead, suites, suites, if_pos rfl, List.nil_append,
    List.append_nil]
  exact .cons ha (h false)

/-- A list of parameters is no suite. -/
theorem group {head : String} {body : List Layout} (hhead : (Layout.line head).opensSuite = false)
    (h : Opens R as body) : Opens R as [.line head, .nest body] := by
  intro below
  rw [suitesAll, suitesAll, suitesAll, hhead, suites, suites, List.nil_append, List.append_nil]
  exact h false

/-- The lines for the members of another list, one after the other. -/
theorem flatMap {β : Type} {g : β → List α} {bs : List β} {lss : List (List Layout)}
    (h : List.Forall₂ (fun b ls => Opens R (g b) ls) bs lss) :
    Opens R (bs.flatMap g) lss.flatten := by
  induction h with
  | nil => exact nil
  | cons hb _ ih => exact hb.append ih

end Opens

end Polyglot.Layout
