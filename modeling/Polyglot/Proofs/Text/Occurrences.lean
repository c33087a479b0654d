import Mathlib.Data.List.Infix
import Polyglot.Proofs.Text.OneLine

/-!
# Texts in texts

A text without a newline stands in another one if it stands in one of its lines. What closes a
comment or a literal stands only at its end if it stands in no line of the text inside.

* `Text.StandsIn` : a text stands in another one, as it is.
* `Text.standsIn_append_newline`, `Text.standsIn_append_of_not_mem`, `Text.standsIn_indentLines` :
  where it can stand in a text that is put together.
* `Text.OnlyAtEnd` : it stands at the end and nowhere else.
* `Text.readTo` : reading up to a text that closes; `Text.readTo_append` reads what is written.
-/

set_option autoImplicit false

namespace Polyglot.Text

/-- The text stands in the other one, as it is. -/
def StandsIn (s whole : String) : Prop := ∃ before after, whole = before ++ s ++ after

variable {s whole : String}

theorem standsIn_iff_isInfix : StandsIn s whole ↔ s.toList <:+: whole.toList := by
  constructor
  · rintro ⟨before, after, rfl⟩
    exact ⟨before.toList, after.toList, by simp⟩
  · rintro ⟨before, after, h⟩
    refine ⟨String.ofList before, String.ofList after, String.toList_inj.1 ?_⟩
    simp [← h]

instance (s whole : String) : Decidable (StandsIn s whole) :=
  decidable_of_iff (s.toList <:+: whole.toList) standsIn_iff_isInfix.symm

namespace StandsIn

theorem self (s : String) : StandsIn s s := ⟨"", "", by simp⟩

theorem append_left (h : StandsIn s whole) (a : String) : StandsIn s (a ++ whole) := by
  obtain ⟨before, after, rfl⟩ := h
  exact ⟨a ++ before, after, by simp [String.append_assoc]⟩

theorem append_right (h : StandsIn s whole) (a : String) : StandsIn s (whole ++ a) := by
  obtain ⟨before, after, rfl⟩ := h
  exact ⟨before, after ++ a, by simp [String.append_assoc]⟩

theorem trans {a b c : String} (hab : StandsIn a b) (hbc : StandsIn b c) : StandsIn a c := by
  obtain ⟨before, after, rfl⟩ := hab
  obtain ⟨before', after', rfl⟩ := hbc
  exact ⟨before' ++ before, after ++ after', by simp [String.append_assoc]⟩

/-- A text stands in a list of texts with separators between them. -/
theorem intercalate {ss : List String} (h : s ∈ ss) (sep : String) :
    StandsIn s (sep.intercalate ss) := by
  induction ss with
  | nil => exact nomatch h
  | cons first rest ih =>
      by_cases hnil : rest = []
      · subst hnil
        cases List.mem_singleton.1 h
        rw [String.intercalate_singleton]
        exact .self s
      · rw [String.intercalate_cons_of_ne_nil hnil]
        rcases List.mem_cons.1 h with rfl | h
        · exact ((StandsIn.self s).append_right sep).append_right _
        · exact (ih h).append_left _

end StandsIn

/-! ## Texts that are put together -/

/-- A text without a newline does not stand across one. -/
theorem standsIn_append_newline (hs : IsLine s) (hne : s ≠ "") {a b : String} :
    StandsIn s (a ++ "\n" ++ b) ↔ StandsIn s a ∨ StandsIn s b := by
  have hnil : s.toList ≠ [] := fun h => hne (String.toList_eq_nil_iff.1 h)
  -- No part of the text that is not empty begins where the newline is.
  have hnewline (l : List Char) (hl : l ⊆ s.toList) (hfront : l <+: '\n' :: b.toList) : l = [] := by
    rcases List.prefix_cons_iff.1 hfront with h | ⟨rest, rfl, -⟩
    · exact h
    · exact absurd (hl (List.mem_cons_self ..)) hs
  have hchars : (a ++ "\n" ++ b).toList = a.toList ++ '\n' :: b.toList := by simp
  rw [standsIn_iff_isInfix, standsIn_iff_isInfix, standsIn_iff_isInfix, hchars,
    List.infix_append_iff_ne_nil, List.infix_cons_iff]
  constructor
  · rintro (h | (h | h) | ⟨l₁, l₂, -, hl₂, hsplit, -, h⟩)
    · exact .inl h
    · exact absurd (hnewline _ (List.Subset.refl _) h) hnil
    · exact .inr h
    · exact absurd (hnewline l₂ (by simp [hsplit]) h) hl₂
  · rintro (h | h)
    · exact .inl h
    · exact .inr (.inl (.inr h))

/-- A text does not begin in a text without its first character. -/
theorem standsIn_append_of_not_mem {c : Char} {cs : List Char} (hs : s.toList = c :: cs)
    {p : String} (hp : c ∉ p.toList) {l : String} : StandsIn s (p ++ l) ↔ StandsIn s l := by
  rw [standsIn_iff_isInfix, standsIn_iff_isInfix, String.toList_append, hs,
    List.infix_append_iff_ne_nil]
  constructor
  · rintro (h | h | ⟨l₁, l₂, hl₁, -, hsplit, h, -⟩)
    · exact absurd (h.subset (List.mem_cons_self ..)) hp
    · exact h
    · obtain ⟨d, ds, rfl⟩ := List.exists_cons_of_ne_nil hl₁
      rw [List.cons_append] at hsplit
      obtain ⟨rfl, -⟩ := List.cons.inj hsplit
      exact absurd (h.subset (List.mem_cons_self ..)) hp
  · exact fun h => .inr (.inl h)

/-- A text without a newline stands in a text of several lines if it stands in one of them. -/
theorem standsIn_intercalate (hs : IsLine s) (hne : s ≠ "") (ls : List String) :
    StandsIn s ("\n".intercalate ls) ↔ ∃ l ∈ ls, StandsIn s l := by
  induction ls with
  | nil => simpa [standsIn_iff_isInfix] using hne
  | cons l ls ih =>
      by_cases hnil : ls = []
      · simp [hnil]
      · rw [String.intercalate_cons_of_ne_nil hnil, standsIn_append_newline hs hne, ih,
          List.exists_mem_cons_iff]

/-- Lines that end in a newline each, and a text behind them. -/
theorem standsIn_join_append (hs : IsLine s) (hne : s ≠ "") {ls : List String} {last : String} :
    StandsIn s (String.join (ls.map (· ++ "\n")) ++ last) ↔
      (∃ l ∈ ls, StandsIn s l) ∨ StandsIn s last := by
  induction ls with
  | nil => simp
  | cons l ls ih =>
      rw [List.map_cons, String.join_cons, String.append_assoc, standsIn_append_newline hs hne, ih,
        List.exists_mem_cons_iff, or_assoc]

theorem standsIn_indentLine {c : Char} {cs : List Char} (hs : s.toList = c :: cs) {p : String}
    (hp : c ∉ p.toList) {l : String} : StandsIn s (indentLine p l) ↔ StandsIn s l := by
  by_cases hempty : l = ""
  · rw [hempty, indentLine_empty]
  · rw [indentLine, if_neg hempty, standsIn_append_of_not_mem hs hp]

/-- Where something stands in front of every line, a text that does not begin in it stands in the
same places. -/
theorem standsIn_indentLines (hs : IsLine s) {c : Char} {cs : List Char}
    (hchars : s.toList = c :: cs) {p : String} (hp : c ∉ p.toList) {text : String} :
    StandsIn s (indentLines p text) ↔ StandsIn s text := by
  have hne : s ≠ "" := by
    rintro rfl
    cases hchars
  have htext := standsIn_intercalate hs hne (lines text)
  rw [intercalate_lines] at htext
  rw [indentLines, standsIn_intercalate hs hne, htext]
  simp [standsIn_indentLine hchars hp]

/-! ## Closing texts -/

/-- The text does not stand in the other one except at its end. -/
def OnlyAtEnd (s whole : String) : Prop :=
  ∀ before after, whole = before ++ s ++ after → after = ""

/-- Without the last character, the closing text does not stand anywhere. -/
theorem onlyAtEnd_push {close body : String} {c : Char} :
    OnlyAtEnd close (body.push c) ↔ ¬ StandsIn close body := by
  constructor
  · rintro h ⟨before, after, rfl⟩
    have hempty := h before (after.push c) (String.toList_inj.1 (by simp))
    exact absurd (congrArg String.toList hempty) (by simp)
  · intro h before after hwhole
    have hchars : body.toList ++ [c] = before.toList ++ close.toList ++ after.toList := by
      simpa using congrArg String.toList hwhole
    rcases List.eq_nil_or_concat' after.toList with hnil | ⟨front, d, hafter⟩
    · exact String.toList_eq_nil_iff.1 hnil
    · rw [hafter, ← List.append_assoc] at hchars
      refine absurd (standsIn_iff_isInfix.2 ⟨before.toList, front, ?_⟩) h
      exact (List.append_inj' hchars rfl).1.symm

/-- Reads up to the first place where the closing text stands, and gives what is before it and what
is behind it. Where a backslash escapes, nothing closes right behind it. -/
def readTo (escapes : Bool) (close : List Char) (escaped : Bool) :
    List Char → Option (List Char × List Char)
  | [] => none
  | c :: cs =>
    if !escaped && close.isPrefixOf (c :: cs) then some ([], (c :: cs).drop close.length)
    else
      (readTo escapes close (escapes && !escaped && c == '\\') cs).map fun r => (c :: r.1, r.2)

/-- **What is written is read back** up to the closing text at its end, if the closing text stands
nowhere else and no character that escapes stands right before it. -/
theorem readTo_append {escapes : Bool} {close : List Char} (hne : close ≠ []) (rest : List Char) :
    ∀ {body : List Char} {escaped : Bool},
      (∀ before after, body ++ close = before ++ close ++ after → after = []) →
        (escapes = true → body.getLast? ≠ some '\\') → (escaped = true → body ≠ []) →
          readTo escapes close escaped (body ++ close ++ rest) = some (body, rest)
  | [], escaped, _, _, hescaped => by
      obtain ⟨c, cs, rfl⟩ := List.exists_cons_of_ne_nil hne
      have hfree : escaped = false := by simpa using hescaped
      have hfront : (c :: cs).isPrefixOf (c :: (cs ++ rest)) = true := by simp
      have hdrop : (c :: (cs ++ rest)).drop (c :: cs).length = rest := by simp
      rw [List.nil_append, List.cons_append, readTo, hfree, hfront, hdrop]
      rfl
  | c :: body, escaped, honly, hlast, _ => by
      have hfront : close.isPrefixOf (c :: (body ++ close ++ rest)) = false := by
        rw [← Bool.not_eq_true, List.isPrefixOf_iff_prefix]
        intro h
        -- The closing text would fit in front of where it stands.
        have hlonger : close.length ≤ (c :: (body ++ close)).length := by simp; omega
        obtain ⟨after, hafter⟩ := List.prefix_of_prefix_length_le h
          (List.prefix_append (c :: (body ++ close)) rest) hlonger
        have hnil := honly [] after hafter.symm
        rw [hnil, List.append_nil] at hafter
        have := congrArg List.length hafter
        simp at this
        omega
      have hread : readTo escapes close (escapes && !escaped && c == '\\') (body ++ close ++ rest) =
          some (body, rest) := by
        refine readTo_append hne rest (fun before after h => ?_) (fun h => ?_) (fun h => ?_)
        · exact honly (c :: before) after (by rw [List.cons_append, h]; rfl)
        · cases body with
          | nil => simp
          | cons d ds => simpa using hlast h
        · rintro rfl
          simp only [Bool.and_eq_true, beq_iff_eq] at h
          exact hlast h.1.1 (by rw [h.2]; rfl)
      rw [List.cons_append, List.cons_append, readTo, hfront, Bool.and_false, hread]
      rfl

end Polyglot.Text
