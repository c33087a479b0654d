import Polyglot.Proofs.Layout.Depth
import Polyglot.Proofs.Text.Quoted

/-!
# Literals on indented lines

The writer of lines puts the indentation in front of every line of a text, lines that begin inside a
literal included. A literal in single quotes holds its newlines as they are, so the indentation gets
into it.

* `Text.inset` : a piece of a text after its lines have been indented.
* `Text.exists_indentLines_encode` : a literal in an indented text is the literal, inset.
* `Text.inset_eq_self_iff` : a text is left as it is if it is one line, or if nothing is put in
  front of lines.
* `Text.SingleQuoted.read_inset` : what is read from a literal that was inset.
-/

set_option autoImplicit false

namespace Polyglot.Text

/-! ## Characters -/

/-- Characters with `p` in front of every line that is not empty. A line begins with the first
character if `fresh` is set. A last line without characters gets `last`: nothing where the text
ends, and `p` where the line goes on behind the characters. -/
def indentChars (p last : List Char) (fresh : Bool) : List Char → List Char
  | [] => if fresh then last else []
  | c :: cs =>
    if c = '\n' then c :: indentChars p last true cs
    else (if fresh then p else []) ++ c :: indentChars p last false cs

variable {p last cs ds : List Char} {c : Char} {fresh : Bool}

/-- Characters in front of a line that goes on are indented by themselves. -/
theorem indentChars_append_cons (hc : c ≠ '\n') :
    indentChars p last fresh (cs ++ c :: ds) =
      indentChars p p fresh cs ++ c :: indentChars p last false ds := by
  induction cs generalizing fresh with
  | nil => simp only [List.nil_append, indentChars, if_neg hc]
  | cons b cs ih =>
      rw [List.cons_append, indentChars, indentChars]
      by_cases hb : b = '\n'
      · rw [if_pos hb, if_pos hb, ih, List.cons_append]
      · rw [if_neg hb, if_neg hb, ih, List.append_assoc, List.cons_append]

/-- Characters without a newline stay as they are. -/
theorem indentChars_of_not_mem (h : '\n' ∉ cs) : indentChars p p false cs = cs := by
  induction cs with
  | nil => rfl
  | cons c cs ih =>
      rw [List.mem_cons, not_or] at h
      rw [indentChars, if_neg (Ne.symm h.1), ih h.2]
      rfl

theorem indentChars_nil (fresh : Bool) (cs : List Char) : indentChars [] [] fresh cs = cs := by
  induction cs generalizing fresh with
  | nil => exact ite_self []
  | cons c cs ih =>
      rw [indentChars, ih, ih, ite_self]
      exact ite_self _

/-- At least one line is indented behind a newline. -/
theorem length_indentChars (p : List Char) (fresh : Bool) (cs : List Char) :
    cs.length + (if fresh = true ∨ '\n' ∈ cs then p.length else 0) ≤
      (indentChars p p fresh cs).length := by
  induction cs generalizing fresh with
  | nil => cases fresh <;> simp [indentChars]
  | cons c cs ih =>
      by_cases hc : c = '\n'
      · have hrest := ih true
        rw [if_pos (.inl rfl)] at hrest
        rw [indentChars, if_pos hc, if_pos (.inr (hc ▸ List.mem_cons_self ..))]
        simp only [List.length_cons]
        omega
      · have hrest := ih false
        rw [indentChars, if_neg hc]
        cases fresh <;> by_cases hmem : '\n' ∈ cs <;>
          simp [hmem, Ne.symm hc] at hrest ⊢ <;> omega

theorem indentChars_eq_self_iff : indentChars p p false cs = cs ↔ '\n' ∉ cs ∨ p = [] := by
  constructor
  · intro h
    by_contra hboth
    rw [not_or, not_not] at hboth
    have hlength := length_indentChars p false cs
    rw [h, if_pos (.inr hboth.1)] at hlength
    have hpos : 0 < p.length := List.length_pos_iff.2 hboth.2
    omega
  · rintro (h | rfl)
    · exact indentChars_of_not_mem h
    · exact indentChars_nil false cs

/-! ## Texts -/

/-- A text with `p` in front of its lines but the first, as it stands on an indented line that goes
on behind it. Lines that are empty stay empty. -/
def inset (p s : String) : String := String.ofList (indentChars p.toList p.toList false s.toList)

theorem inset_eq_self_iff {p s : String} : inset p s = s ↔ '\n' ∉ s.toList ∨ p = "" := by
  rw [inset, ← String.toList_inj, String.toList_ofList, indentChars_eq_self_iff,
    String.toList_eq_nil_iff]

/-- A line with something in front of it; an empty line stays empty. -/
def indentLineChars (p l : List Char) : List Char := if l = [] then [] else p ++ l

theorem toList_indentLine (p l : String) :
    (indentLine p l).toList = indentLineChars p.toList l.toList := by
  rw [indentLine, indentLineChars]
  by_cases h : l = ""
  · rw [if_pos h, if_pos (String.toList_eq_nil_iff.2 h)]
    rfl
  · rw [if_neg h, if_neg (mt String.toList_eq_nil_iff.1 h), String.toList_append]

theorem intercalate_append_cons (sep a l : List Char) (ls : List (List Char)) :
    sep.intercalate ((a ++ l) :: ls) = a ++ sep.intercalate (l :: ls) := by
  cases ls with
  | nil => rw [List.intercalate_singleton, List.intercalate_singleton]
  | cons l' ls =>
      rw [List.intercalate_cons_cons, List.intercalate_cons_cons]
      simp only [List.append_assoc]

/-- Lines that are put together again after each of them was indented, and the same with the first
line as it is. -/
theorem intercalate_map_indentLineChars (p cs : List Char) :
    ∀ {first : List Char} {rest : List (List Char)}, cs.splitOn '\n' = first :: rest →
      ['\n'].intercalate ((first :: rest).map (indentLineChars p)) = indentChars p [] true cs ∧
      ['\n'].intercalate (first :: rest.map (indentLineChars p)) = indentChars p [] false cs := by
  induction cs with
  | nil =>
      intro first rest h
      cases h
      exact ⟨rfl, rfl⟩
  | cons c cs ih =>
      intro first rest h
      cases hsplit : cs.splitOn '\n' with
      | nil => exact absurd hsplit (List.splitOn_ne_nil '\n' cs)
      | cons l ls =>
          obtain ⟨hfresh, hgoing⟩ := ih hsplit
          rw [List.splitOn_cons_eq_if_modifyHead, hsplit] at h
          simp only [indentChars]
          by_cases hc : c = '\n'
          · rw [if_pos (beq_iff_eq.2 hc)] at h
            cases h
            -- The first line is empty, and the next one is fresh.
            have hline : ['\n'].intercalate ([] :: (l :: ls).map (indentLineChars p)) =
                '\n' :: indentChars p [] true cs := by
              rw [List.intercalate_cons_of_ne_nil (mt List.map_eq_nil_iff.1 (List.cons_ne_nil _ _)),
                hfresh]
              rfl
            rw [if_pos hc, if_pos hc, hc]
            exact ⟨hline, hline⟩
          · rw [if_neg (mt beq_iff_eq.1 hc), List.modifyHead_cons] at h
            cases h
            rw [if_neg hc, if_neg hc]
            constructor
            · have hline : indentLineChars p (c :: l) = p ++ [c] ++ l := by
                rw [indentLineChars, if_neg (List.cons_ne_nil _ _), List.append_assoc]
                rfl
              rw [List.map_cons, hline, intercalate_append_cons, hgoing, List.append_assoc]
              rfl
            · exact (intercalate_append_cons ['\n'] [c] l _).trans (congrArg (c :: ·) hgoing)

/-- The lines of a text are indented character by character. -/
theorem toList_indentLines (p s : String) :
    (indentLines p s).toList = indentChars p.toList [] true s.toList := by
  cases hsplit : s.toList.splitOn '\n' with
  | nil => exact absurd hsplit (List.splitOn_ne_nil '\n' s.toList)
  | cons first rest =>
      rw [← (intercalate_map_indentLineChars p.toList s.toList hsplit).1, indentLines, lines,
        hsplit, String.toList_intercalate, List.map_map, List.map_map]
      congr 1
      refine List.map_congr_left fun l _ => ?_
      rw [Function.comp_apply, Function.comp_apply, toList_indentLine, String.toList_ofList]

/-! ## Literals -/

namespace SingleQuoted

/-- A literal that is inset is a literal again. -/
theorem indentChars_encodeChars (p cs : List Char) :
    indentChars p p false (encodeChars cs) =
      '\'' :: (indentChars p p false (cs.flatMap escape) ++ ['\'']) := by
  have hquote : '\'' ≠ '\n' := by decide
  rw [encodeChars, ← List.nil_append ('\'' :: _), indentChars_append_cons hquote,
    indentChars_append_cons hquote]
  rfl

theorem indentChars_escape_append {c : Char} (hc : c ≠ '\n') (p : List Char) (fresh : Bool)
    (cs : List Char) :
    indentChars p p fresh (escape c ++ cs) =
      (if fresh then p else []) ++ (escape c ++ indentChars p p false cs) := by
  unfold escape
  split
  · cases fresh <;> simp [indentChars]
  split
  · cases fresh <;> simp [indentChars]
  · cases fresh <;> simp [indentChars, hc]

/-- Characters are escaped one by one, so escaping can be left to the end if nothing of what is put
in front of lines is escaped. -/
theorem indentChars_flatMap_escape {p : List Char} (hp : p.flatMap escape = p) (fresh : Bool)
    (cs : List Char) :
    indentChars p p fresh (cs.flatMap escape) = (indentChars p p fresh cs).flatMap escape := by
  have hstart (fresh : Bool) :
      (if fresh then p else []).flatMap escape = if fresh then p else [] := by
    cases fresh
    · rfl
    · exact hp
  induction cs generalizing fresh with
  | nil => exact (hstart fresh).symm
  | cons c cs ih =>
      rw [List.flatMap_cons, indentChars.eq_def p p fresh (c :: cs)]
      by_cases hc : c = '\n'
      · subst hc
        exact congrArg ('\n' :: ·) (ih true)
      · simp only [if_neg hc]
        rw [indentChars_escape_append hc, ih false, List.flatMap_append, hstart, List.flatMap_cons]

theorem flatMap_escape_eq_self {p : List Char} (h : '\'' ∉ p ∧ '\\' ∉ p) :
    p.flatMap escape = p := by
  have hsingle : ∀ c ∈ p, escape c = [c] := by
    intro c hc
    have hback : c ≠ '\\' := fun heq => h.2 (heq ▸ hc)
    have hquote : c ≠ '\'' := fun heq => h.1 (heq ▸ hc)
    rw [escape, if_neg hback, if_neg hquote]
  rw [List.flatMap_congr hsingle, List.flatMap_singleton']

/-- A literal that is inset is the literal of the inset text, if nothing of what is put in front of
lines is escaped. -/
theorem inset_encode {p : String} (hp : '\'' ∉ p.toList ∧ '\\' ∉ p.toList) (s : String) :
    inset p (encode s) = encode (inset p s) := by
  rw [inset, encode, encode, String.toList_ofList, indentChars_encodeChars,
    indentChars_flatMap_escape (flatMap_escape_eq_self hp), inset, String.toList_ofList,
    encodeChars]

theorem newline_not_mem_encode {s : String} (h : '\n' ∉ s.toList) : '\n' ∉ (encode s).toList := by
  have hescape : ∀ c ∈ s.toList, '\n' ∉ escape c := by
    intro c hc
    have hne : c ≠ '\n' := fun heq => h (heq ▸ hc)
    unfold escape
    split
    · decide
    split
    · decide
    · exact fun hmem => hne (List.mem_singleton.1 hmem).symm
  rw [encode, String.toList_ofList, encodeChars, List.mem_cons, List.mem_append, List.mem_flatMap]
  rintro (hmem | ⟨c, hc, hmem⟩ | hmem)
  · exact absurd hmem (by decide)
  · exact hescape c hc hmem
  · exact absurd hmem (by decide)

/-- **What is read from a literal that was inset**: the text itself if it is one line, or if nothing
is put in front of lines, and else the inset text, if nothing of what is put there is escaped. -/
theorem read_inset (p s r : String) :
    ('\n' ∉ s.toList ∨ p = "" →
      read (inset p (encode s) ++ r).toList = some (s.toList, r.toList)) ∧
    ('\'' ∉ p.toList ∧ '\\' ∉ p.toList →
      read (inset p (encode s) ++ r).toList = some ((inset p s).toList, r.toList)) := by
  have hread (s : String) : read (encode s ++ r).toList = some (s.toList, r.toList) := by
    rw [String.toList_append, encode, String.toList_ofList]
    exact read_encodeChars s.toList r.toList
  constructor
  · intro h
    have hself : inset p (encode s) = encode s :=
      inset_eq_self_iff.2 (h.imp_left newline_not_mem_encode)
    rw [hself, hread]
  · intro hp
    rw [inset_encode hp, hread]

end SingleQuoted

/-- A literal on an indented line is inset; what stands beside it does not depend on the literal. -/
theorem exists_indentLines_encode (p a b : String) :
    ∃ before after, ∀ s, indentLines p (a ++ SingleQuoted.encode s ++ b) =
      before ++ inset p (SingleQuoted.encode s) ++ after := by
  have hquote : '\'' ≠ '\n' := by decide
  refine ⟨String.ofList (indentChars p.toList p.toList true a.toList),
    String.ofList (indentChars p.toList [] false b.toList), fun s => String.toList_inj.1 ?_⟩
  rw [toList_indentLines, String.toList_append, String.toList_append, SingleQuoted.encode,
    String.toList_ofList, SingleQuoted.encodeChars, List.append_assoc, List.cons_append,
    List.append_assoc, List.cons_append, List.nil_append, indentChars_append_cons hquote,
    indentChars_append_cons hquote, inset, String.toList_ofList]
  simp only [String.toList_append, String.toList_ofList]
  rw [← SingleQuoted.encodeChars, SingleQuoted.indentChars_encodeChars]
  simp only [List.append_assoc, List.cons_append, List.nil_append]

end Polyglot.Text
