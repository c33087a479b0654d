import Polyglot.Proofs.Brackets.Python
import Polyglot.Proofs.Text.Fields

/-!
# Expressions in f-strings

The code of an expression stands in the field of an f-string as it is. It is read as that field just
if nothing in it ends the f-string or the field, and it does not begin with a brace: a dictionary in
an f-string is read as text.

* `Part.IsWritten` : the piece that a part of a text is to be read as.
* `Text.FString.isField_iff` : well-bracketed code in a field.
* `Expr.read_text_iff` : **which texts are read back to their parts.**
-/

set_option autoImplicit false

namespace Polyglot

open Outcome Text

/-! ## Well-bracketed code -/

namespace Text.FString

open Brackets CodeState

/-- The quote around the f-string and a backslash cannot stand in a field. -/
theorem ne_of_run? {s s' : CodeState} {cs : List Char} (h : s.run? cs = some s') :
    ∀ c ∈ cs, c ≠ '"' ∧ c ≠ '\\' := by
  induction cs generalizing s with
  | nil => exact fun c hc => nomatch hc
  | cons c cs ih =>
      rw [run?_cons] at h
      obtain ⟨s₁, hstep, hrun⟩ := Option.bind_eq_some_iff.1 h
      refine List.forall_mem_cons.2 ⟨not_or.1 fun hc => ?_, ih hrun⟩
      rw [step?, if_pos hc] at hstep
      cases hstep

/-- A count of brackets that goes along with a scan for them. Python has no template literals. -/
structure CodeState.Follows (f : CodeState) (s : State) : Prop where
  depth : f.depth = s.stack.length
  mode : s.mode = if f.quoted then .inside .single else .code
  plain : Frame.field ∉ s.stack

theorem CodeState.follows_start : start.Follows ⟨.code, []⟩ := ⟨rfl, rfl, List.not_mem_nil⟩

/-- The innermost frame is closed. -/
theorem CodeState.Follows.close {depth : Nat} {stack : List Frame} {s : State} {c : Char}
    (h : Follows ⟨depth, false⟩ ⟨.code, stack⟩) (hclose : close c stack = some s) :
    depth ≠ 0 ∧ Follows ⟨depth - 1, false⟩ s := by
  cases stack with
  | nil => cases hclose
  | cons frame stack =>
      obtain ⟨hframe, hplain⟩ := not_or.1 (mt List.mem_cons.2 h.plain)
      rw [Brackets.close] at hclose
      have hdepth : depth = stack.length + 1 := h.depth
      split at hclose
      · cases hclose
        refine ⟨by omega, by simp [hdepth], ?_, hplain⟩
        cases frame <;> first | rfl | exact absurd rfl hframe
      · cases hclose

section

variable {depth : Nat} {stack : List Frame} {s' : State} {c : Char}

/-- One character of a string literal. -/
theorem CodeState.Follows.step_inside (h : Follows ⟨depth, true⟩ ⟨.inside .single, stack⟩)
    (hc : c ≠ '"' ∧ c ≠ '\\') (hstep : step .python ⟨.inside .single, stack⟩ c = some s') :
    ∃ f', step? ⟨depth, true⟩ c = some f' ∧ f'.Follows s' := by
  cases hstep
  rw [step?, if_neg (not_or.2 hc)]
  refine ⟨_, rfl, h.depth, ?_, h.plain⟩
  by_cases hquote : c = '\''
  · simp [insideStep, hquote, Quote.char]
  · simp [insideStep, hquote, hc.2, Quote.char]

/-- One character outside of string literals: a quote, a bracket that is opened, one that is closed,
or any other character. -/
theorem CodeState.Follows.step_code (h : Follows ⟨depth, false⟩ ⟨.code, stack⟩)
    (hc : c ≠ '"' ∧ c ≠ '\\') (hstep : codeStep .python stack c = some s') :
    ∃ f', step? ⟨depth, false⟩ c = some f' ∧ f'.Follows s' := by
  rw [step?, if_neg (not_or.2 hc), if_neg Bool.false_ne_true]
  by_cases hsingle : c = '\''
  · rw [hsingle] at hstep ⊢
    cases hstep
    exact ⟨_, rfl, h.depth, rfl, h.plain⟩
  have hquote : quote? .python c = none := by
    simp [quote?, hsingle, hc.1]
  rw [codeStep, hquote] at hstep
  rw [if_neg hsingle]
  by_cases hopen : c = '(' ∨ c = '[' ∨ c = '\x7b'
  · have hdepth : depth + 1 = stack.length + 1 := congrArg (· + 1) h.depth
    rw [if_pos hopen]
    rcases hopen with rfl | rfl | rfl <;> cases hstep <;>
      exact ⟨_, rfl, hdepth, rfl, by simpa using h.plain⟩
  have hopened : opened? c = none := by
    obtain ⟨hround, hsquare, hcurly⟩ := by simpa only [not_or] using hopen
    rw [opened?, if_neg hround, if_neg hsquare, if_neg hcurly]
  simp only [hopened] at hstep
  rw [if_neg hopen]
  by_cases hclose : c = ')' ∨ c = ']' ∨ c = '\x7d'
  · rw [if_pos hclose] at hstep ⊢
    obtain ⟨hdepth, hfollows⟩ := h.close hstep
    rw [if_neg fun h => hdepth h.2]
    exact ⟨_, rfl, hfollows⟩
  · rw [if_neg hclose] at hstep ⊢
    rw [if_neg fun h => hclose (.inr (.inr h.1))]
    cases hstep
    exact ⟨_, rfl, h⟩

end

/-- One character of code that can stand in a field. -/
theorem CodeState.Follows.step {f : CodeState} {s s' : State} (h : f.Follows s) {c : Char}
    (hc : c ≠ '"' ∧ c ≠ '\\') (hstep : step .python s c = some s') :
    ∃ f', f.step? c = some f' ∧ f'.Follows s' := by
  obtain ⟨depth, quoted⟩ := f
  obtain ⟨mode, stack⟩ := s
  have hmode := h.mode
  cases quoted with
  | true =>
      cases hmode
      exact h.step_inside hc hstep
  | false =>
      cases hmode
      exact h.step_code hc hstep

theorem CodeState.Follows.run {f : CodeState} {s s' : State} {cs : List Char} (h : f.Follows s)
    (hcs : ∀ c ∈ cs, c ≠ '"' ∧ c ≠ '\\') (hrun : Brackets.run .python s cs = some s') :
    ∃ f', f.run? cs = some f' ∧ f'.Follows s' := by
  induction cs generalizing f s with
  | nil =>
      cases hrun
      exact ⟨f, rfl, h⟩
  | cons c cs ih =>
      obtain ⟨hc, hcs⟩ := List.forall_mem_cons.1 hcs
      rw [run_cons] at hrun
      obtain ⟨s₁, hstep, hrun⟩ := Option.bind_eq_some_iff.1 hrun
      obtain ⟨f₁, hfstep, hfollows⟩ := h.step hc hstep
      obtain ⟨f', hfrun, hfollows⟩ := ih hfollows hcs hrun
      exact ⟨f', by rw [run?_cons, hfstep]; exact hfrun, hfollows⟩

/-- **Well-bracketed code can stand in a field** just if it does not begin with a brace and holds no
double quote and no backslash. -/
theorem isField_iff {code : String} (h : WellBracketed .python code) :
    IsField code ↔
      code.toList.head? ≠ some '\x7b' ∧ ∀ c ∈ code.toList, c ≠ '"' ∧ c ≠ '\\' := by
  refine and_congr_right fun _ => ⟨ne_of_run?, fun hcs => ?_⟩
  obtain ⟨⟨depth, quoted⟩, hrun, hdepth, hmode, -⟩ := follows_start.run hcs h
  rw [hrun]
  cases quoted with
  | true => cases hmode
  | false =>
      cases hdepth
      rfl

end Text.FString

/-! ## Texts -/

/-- The piece that a part of a text is to be read as: its characters, or a field with exactly the
code of its expression. -/
inductive Part.IsWritten : Part → Piece → Prop where
  | chars (s : String) : IsWritten (.chars s) (.chars s.toList)
  | value {e : Expr} {c : Code} (h : e.toPython = .ok c) : IsWritten (.value e) (.field c.text)

/-- The pieces of a text are written one after the other. -/
theorem Part.exists_isWritten : ∀ {parts : List Part} {ss : List String},
    Part.toPythonAll parts = .ok ss → ∃ pieces, List.Forall₂ IsWritten parts pieces ∧
      (String.join ss).toList = pieces.flatMap FString.style.write
  | [], ss, h => by
      cases h
      exact ⟨[], .nil, rfl⟩
  | .chars s :: parts, ss, h => by
      obtain ⟨rest, hrest, h⟩ := bind_eq_ok.1 h
      cases pure_eq_ok.1 h
      obtain ⟨pieces, hpieces, hchars⟩ := exists_isWritten hrest
      refine ⟨.chars s.toList :: pieces, .cons (.chars s) hpieces, ?_⟩
      rw [String.join_cons, String.toList_append, hchars, FString.encode, String.toList_ofList]
      rfl
  | .value e :: parts, ss, h => by
      obtain ⟨c, hc, h⟩ := bind_eq_ok.1 h
      obtain ⟨rest, hrest, h⟩ := bind_eq_ok.1 h
      cases pure_eq_ok.1 h
      obtain ⟨pieces, hpieces, hchars⟩ := exists_isWritten hrest
      refine ⟨.field c.text :: pieces, .cons (.value hc) hpieces, ?_⟩
      rw [String.join_cons, String.toList_append, hchars, String.toList_append,
        String.toList_append]
      rfl

/-- Reads an f-string, and nothing behind it. -/
def Text.FString.readLiteral : List Char → Option (List Piece × List Char)
  | 'f' :: '"' :: cs => read cs
  | _ => none

namespace Expr

/-- **Which texts are read back to their parts**, of all texts that can be written in Python. The
whole code is read, to the characters and fields that the text was put together from, just if the
code of each expression in it can stand in a field. For an expression that is spelled by ordinary
names, that is so just if its code does not begin with a brace and holds no double quote and no
backslash. -/
theorem read_text_iff {parts : List Part} {code : Code}
    (h : (Expr.text parts).toPython = .ok code) :
    (∃ pieces, List.Forall₂ Part.IsWritten parts pieces ∧ ∀ rest,
      (FString.readLiteral (code.text.toList ++ rest) = some (Piece.merged pieces, rest) ↔
        ∀ c, .field c ∈ pieces → FString.IsField c)) ∧
    ∀ e c, .value e ∈ parts → e.IsSpelled isInert .python → e.toPython = .ok c →
      (FString.IsField c.text ↔ c.text.toList.head? ≠ some '\x7b' ∧
        ∀ x ∈ c.text.toList, x ≠ '"' ∧ x ≠ '\\') := by
  obtain ⟨ss, hss, h⟩ := bind_eq_ok.1 h
  cases pure_eq_ok.1 h
  obtain ⟨pieces, hpieces, hchars⟩ := Part.exists_isWritten hss
  refine ⟨⟨pieces, hpieces, fun rest => ?_⟩, fun e c _ hspell hc => ?_⟩
  · have hliteral : ("f\"" ++ String.join ss ++ "\"").toList ++ rest =
        'f' :: '"' :: (pieces.flatMap FString.style.write ++ '"' :: rest) := by
      simp [hchars]
    rw [hliteral]
    exact FString.read_write_iff rest
  · exact FString.isField_iff (wellBracketed_toPython (fun _ hs => hs) e hspell hc)

/-- An entry of a dictionary behind a brace that is meant as such. -/
theorem read_text_of_entry :
    (Expr.text [.chars "\x7b",
        .value (.item .key (.var "d" none) (.literal (.str "k")))]).toPython =
          .ok ⟨"f\"\x7b\x7b\x7bd['k']\x7d\"", .literal⟩ ∧
      FString.readLiteral "f\"\x7b\x7b\x7bd['k']\x7d\"".toList =
        some ([.chars ['\x7b'], .field "d['k']"], []) := by
  have hcode : (Expr.text [.chars "\x7b",
      .value (.item .key (.var "d" none) (.literal (.str "k")))]).toPython =
        .ok ⟨"f\"\x7b\x7b\x7bd['k']\x7d\"", .literal⟩ := rfl
  refine ⟨hcode, ?_⟩
  obtain ⟨⟨pieces, hpieces, hread⟩, -⟩ := read_text_iff hcode
  cases hpieces with
  | cons hchars hpieces =>
      cases hchars
      cases hpieces with
      | cons hvalue hpieces =>
          cases hvalue with
          | value hentry =>
              cases hentry
              cases hpieces
              have h := (hread []).2 (by simp +decide)
              rwa [List.append_nil] at h

/-- A dictionary in a text is written as the characters of its code are, and is read as these. A key
with an apostrophe in it is written between double quotes, so that the f-string ends in a field. -/
theorem read_text_of_dict :
    (Expr.text [.value (.dict [("a", .literal (.int 1))] .num)]).toPython =
        .ok ⟨"f\"\x7b\x7b'a': 1\x7d\x7d\"", .literal⟩ ∧
      (Expr.text [.chars "\x7b'a': 1\x7d"]).toPython =
        .ok ⟨"f\"\x7b\x7b'a': 1\x7d\x7d\"", .literal⟩ ∧
      FString.readLiteral "f\"\x7b\x7b'a': 1\x7d\x7d\"".toList =
        some ([.chars "\x7b'a': 1\x7d".toList], []) ∧
      (Expr.text [.value (.item .key (.var "d" none) (.literal (.str "it's")))]).toPython =
        .ok ⟨"f\"\x7bd[\"it's\"]\x7d\"", .literal⟩ ∧
      FString.readLiteral "f\"\x7bd[\"it's\"]\x7d\"".toList = none := by
  have hchars : FString.read _ = some (Piece.merged [.chars "\x7b'a': 1\x7d".toList], []) :=
    FString.read_write [] fun code hcode => by simp at hcode
  refine ⟨rfl, rfl, hchars, rfl, ?_⟩
  show FString.read ('\x7b' :: "d[\"it's\"]\x7d\"".toList) = none
  rw [FString.read, readQuoted, if_neg (by decide)]
  rfl

end Expr

end Polyglot
