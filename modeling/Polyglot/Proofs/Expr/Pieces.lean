import Polyglot.Expr.Render
import Polyglot.Proofs.Outcome
import Polyglot.Proofs.Text.Interpolated

/-!
# Texts with variables in them

A text put together from characters and variables is written in every language, and the code is read
back to the pieces that it was put together from.

* `Part.Shows` : the piece that a part of a text stands for.
* `Text.readPieces` : the reader of such code in one language.
* `Expr.readPieces_text` : a written text is read back to its pieces.
-/

set_option autoImplicit false

namespace Polyglot

open Outcome Text

/-- The piece that a part of a text stands for: its characters, or the variable that it is. -/
inductive Part.Shows : Part → Piece → Prop where
  | chars (s : String) : Shows (.chars s) (.chars s.toList)
  | var {name : String} (h : isIdentifier name = true) (ty : Option Ty) :
    Shows (.value (.var name ty)) (.field name)

/-- Reads the code of a text in one language, and nothing behind it. -/
def Text.readPieces : Target → List Char → Option (List Piece × List Char)
  | .python, 'f' :: '"' :: cs => readQuoted FString.style.quote FString.style.next? cs
  | .typescript, '\x60' :: cs => readQuoted Template.style.quote Template.style.next? cs
  | .php, cs => Concatenation.read cs
  | _, _ => none

/-- Nothing at the front of a text goes on with the code of a text in front of it. A literal ends in
a quote; the last operand of a concatenation may be a variable. -/
def Text.StopsPieces (t : Target) (cs : List Char) : Prop := t = .php → Concatenation.Stops cs

variable {parts : List Part} {pieces : List Piece}

theorem Piece.areNamed_of_shows (h : List.Forall₂ Part.Shows parts pieces) :
    Piece.AreNamed pieces := by
  intro name hname
  induction h with
  | nil => cases hname
  | cons hp _ ih =>
      rcases List.mem_cons.1 hname with rfl | hname
      · cases hp
        assumption
      · exact ih hname

/-! ## Writing -/

namespace Part

/-- Python writes the pieces one after the other. -/
theorem exists_toPythonAll (h : List.Forall₂ Shows parts pieces) :
    ∃ ss, toPythonAll parts = .ok ss ∧
      (String.join ss).toList = pieces.flatMap FString.style.write := by
  induction h with
  | nil => exact ⟨[], rfl, rfl⟩
  | cons hp _ ih =>
      obtain ⟨ss, hss, hchars⟩ := ih
      cases hp with
      | chars s =>
          refine ⟨FString.encode s :: ss, ?_, ?_⟩
          · rw [toPythonAll, hss]
            rfl
          · rw [String.join_cons, String.toList_append, hchars, FString.encode,
              String.toList_ofList]
            rfl
      | var hname ty =>
          rename_i name
          refine ⟨("\x7b" ++ name ++ "\x7d") :: ss, ?_, ?_⟩
          · rw [toPythonAll, Expr.toPython, hss]
            rfl
          · rw [String.join_cons, String.toList_append, hchars, String.toList_append,
              String.toList_append]
            rfl

/-- TypeScript writes the pieces one after the other. -/
theorem exists_toTypeScriptAll (h : List.Forall₂ Shows parts pieces) :
    ∃ ss, toTypeScriptAll parts = .ok ss ∧
      (String.join ss).toList = pieces.flatMap Template.style.write := by
  induction h with
  | nil => exact ⟨[], rfl, rfl⟩
  | cons hp _ ih =>
      obtain ⟨ss, hss, hchars⟩ := ih
      cases hp with
      | chars s =>
          refine ⟨Template.encode s :: ss, ?_, ?_⟩
          · rw [toTypeScriptAll, hss]
            rfl
          · rw [String.join_cons, String.toList_append, hchars, Template.encode,
              String.toList_ofList]
            rfl
      | var hname ty =>
          rename_i name
          refine ⟨("$\x7b" ++ name ++ "\x7d") :: ss, ?_, ?_⟩
          · rw [toTypeScriptAll, Expr.toTypeScript, hss]
            rfl
          · rw [String.join_cons, String.toList_append, hchars, String.toList_append,
              String.toList_append]
            rfl

/-- PHP writes each piece as an operand. -/
theorem exists_toPhpAll (h : List.Forall₂ Shows parts pieces) :
    ∃ ss, toPhpAll parts = .ok ss ∧ ss.map String.toList = pieces.map Concatenation.write := by
  induction h with
  | nil => exact ⟨[], rfl, rfl⟩
  | cons hp _ ih =>
      obtain ⟨ss, hss, hchars⟩ := ih
      cases hp with
      | chars s =>
          refine ⟨SingleQuoted.encode s :: ss, ?_, ?_⟩
          · rw [toPhpAll, hss]
            rfl
          · rw [List.map_cons, hchars, SingleQuoted.encode, String.toList_ofList]
            rfl
      | var hname ty =>
          rename_i name
          refine ⟨("$" ++ name) :: ss, ?_, ?_⟩
          · rw [toPhpAll, Expr.toPhp, hss]
            rfl
          · rw [List.map_cons, hchars, String.toList_append]
            rfl

end Part

namespace Expr

theorem readPieces_python (h : List.Forall₂ Part.Shows parts pieces) (rest : List Char) :
    ∃ code, (Expr.text parts).toPython = .ok code ∧
      readPieces .python (code.text.toList ++ rest) = some (Piece.merged pieces, rest) := by
  obtain ⟨ss, hss, hchars⟩ := Part.exists_toPythonAll h
  refine ⟨⟨"f\"" ++ String.join ss ++ "\"", .literal⟩, ?_, ?_⟩
  · rw [toPython, hss]
    rfl
  · have hread := readQuoted_pieces FString.isReadable rest (Piece.areNamed_of_shows h)
    rw [String.toList_append, String.toList_append, hchars, List.append_assoc, List.append_assoc]
    exact hread

theorem readPieces_typeScript (h : List.Forall₂ Part.Shows parts pieces) (rest : List Char) :
    ∃ code, (Expr.text parts).toTypeScript = .ok code ∧
      readPieces .typescript (code.text.toList ++ rest) = some (Piece.merged pieces, rest) := by
  obtain ⟨ss, hss, hchars⟩ := Part.exists_toTypeScriptAll h
  refine ⟨⟨"\x60" ++ String.join ss ++ "\x60", .literal⟩, ?_, ?_⟩
  · rw [toTypeScript, hss]
    rfl
  · have hread := readQuoted_pieces Template.isReadable rest (Piece.areNamed_of_shows h)
    rw [String.toList_append, String.toList_append, hchars, List.append_assoc, List.append_assoc]
    exact hread

theorem readPieces_php (h : List.Forall₂ Part.Shows parts pieces) {rest : List Char}
    (hrest : Concatenation.Stops rest) :
    ∃ code, (Expr.text parts).toPhp = .ok code ∧
      readPieces .php (code.text.toList ++ rest) = some (Piece.merged pieces, rest) := by
  have hnamed := Piece.areNamed_of_shows h
  cases parts with
  | nil =>
      cases h
      -- a text without parts is written as a literal without characters
      have hempty : Piece.AreNamed [.chars []] := by
        rintro name (_ | _)
        contradiction
      exact ⟨⟨"''", .literal⟩, rfl, Concatenation.read_operands hrest (.chars []) hempty⟩
  | cons part parts =>
      obtain ⟨ss, hss, hchars⟩ := Part.exists_toPhpAll h
      cases pieces with
      | nil => cases h
      | cons piece pieces =>
          refine ⟨⟨" . ".intercalate ss, .product⟩, ?_, ?_⟩
          · rw [toPhp, hss]
            · rfl
            · exact List.cons_ne_nil _ _
          · have hread := Concatenation.read_operands hrest piece hnamed
            rw [String.toList_intercalate, hchars]
            exact hread

/-- **Texts with variables.** A text put together from any characters and variables is written in
every language. Its code is read back to the same pieces, up to where characters are cut, and the
reader stops where the code ends. -/
theorem readPieces_text (t : Target) (h : List.Forall₂ Part.Shows parts pieces) {rest : List Char}
    (hrest : StopsPieces t rest) :
    ∃ code, (Expr.text parts).render t = .ok code ∧
      readPieces t (code.text.toList ++ rest) = some (Piece.merged pieces, rest) := by
  cases t with
  | python => exact readPieces_python h rest
  | typescript => exact readPieces_typeScript h rest
  | php => exact readPieces_php h (hrest rfl)

/-- A text in which everything that could open a field or end a literal stands beside a field. -/
def priceParts : List Part :=
  [.chars "$\x7b", .value (.var "n" (some .num)), .chars "\x7d'\\", .chars "", .chars "\"\x60\n$"]

/-- What the text is put together from. -/
def pricePieces : List Piece :=
  [.chars ['$', '\x7b'], .field "n", .chars ['\x7d', '\'', '\\', '"', '\x60', '\n', '$']]

theorem readPieces_priceParts :
    (∃ code, (Expr.text priceParts).toPython = .ok code ∧
        readPieces .python (code.text.toList ++ ['"']) = some (pricePieces, ['"'])) ∧
      (∃ code, (Expr.text priceParts).toTypeScript = .ok code ∧
        readPieces .typescript (code.text.toList ++ ['\x60']) = some (pricePieces, ['\x60'])) ∧
      StopsPieces .php [';'] ∧ ∃ code, (Expr.text priceParts).toPhp = .ok code ∧
        readPieces .php (code.text.toList ++ [';']) = some (pricePieces, [';']) := by
  have hname : isIdentifier "n" = true := by decide
  have h : List.Forall₂ Part.Shows priceParts
      [.chars ['$', '\x7b'], .field "n", .chars ['\x7d', '\'', '\\'], .chars [],
        .chars ['"', '\x60', '\n', '$']] :=
    .cons (.chars _) (.cons (.var hname _) (.cons (.chars _) (.cons (.chars _)
      (.cons (.chars _) .nil))))
  have hstops : StopsPieces .php [';'] := by
    rintro - c ⟨⟩
    decide
  exact ⟨readPieces_text .python h nofun, readPieces_text .typescript h nofun, hstops,
    readPieces_text .php h hstops⟩

end Expr

end Polyglot
