import Polyglot.Proofs.Name
import Polyglot.Proofs.Text.Quoted
import Polyglot.Text.Interpolated

/-!
# Reading texts put together from parts

Readers for the three forms of a text with variables in it: an f-string, a template literal, and
literals and variables with a dot between them. A reader gives characters that stand side by side as
one piece, and no piece for no characters.

* `Piece.merged` : pieces in the form in which readers give them; `Piece.symbols_merged` says that
  merging changes nothing but where characters are cut.
* `FString.next?`, `Template.next?` : one character or one field off the front.
* `readQuoted_pieces` : pieces are read up to the closing quote, in either kind of literal.
* `Concatenation.read_operands` : operands are read as long as there is a dot behind them.
-/

set_option autoImplicit false

namespace Polyglot.Text

/-- A piece of a text: characters, or a field that shows a variable. -/
inductive Piece where
  | chars (cs : List Char)
  | field (name : String)
  deriving DecidableEq, Repr

namespace Piece

/-- Pieces with one more in front. Characters go into a piece with characters behind them, and no
characters into none. -/
def push : Piece → List Piece → List Piece
  | .chars [], ps => ps
  | .chars (c :: cs), .chars ds :: ps => .chars (c :: (cs ++ ds)) :: ps
  | .chars (c :: cs), ps => .chars (c :: cs) :: ps
  | .field name, ps => .field name :: ps

/-- Pieces without empty ones, and with characters that stand side by side in one piece. -/
def merged (ps : List Piece) : List Piece := ps.foldr push []

/-- What a piece shows, one character or field after the other. -/
def symbols : Piece → List (Char ⊕ String)
  | .chars cs => cs.map .inl
  | .field name => [.inr name]

@[simp] theorem merged_cons (p : Piece) (ps : List Piece) :
    merged (p :: ps) = p.push (merged ps) := rfl

theorem symbols_push (p : Piece) (ps : List Piece) :
    (p.push ps).flatMap symbols = p.symbols ++ ps.flatMap symbols := by
  cases p with
  | field name => rfl
  | chars cs =>
      cases cs with
      | nil => rfl
      | cons c cs =>
          cases ps with
          | nil => rfl
          | cons q ps => cases q <;> simp [push, symbols]

/-- Merging changes nothing but where characters are cut. -/
theorem symbols_merged (ps : List Piece) : (merged ps).flatMap symbols = ps.flatMap symbols := by
  induction ps with
  | nil => rfl
  | cons p ps ih => rw [merged_cons, symbols_push, ih, List.flatMap_cons]

/-- Characters can be put in front one by one. -/
theorem push_chars_cons (c : Char) (cs : List Char) (ps : List Piece) :
    push (.chars (c :: cs)) ps = push (.chars [c]) (push (.chars cs) ps) := by
  cases cs with
  | nil => rfl
  | cons d cs =>
      cases ps with
      | nil => rfl
      | cons q ps => cases q <;> rfl

end Piece

/-! ## Names -/

/-- Reads a name off the front of a text. -/
def readName (cs : List Char) : Option (String × List Char) :=
  let name := String.ofList (cs.takeWhile isWordChar)
  if isIdentifier name then some (name, cs.dropWhile isWordChar) else none

/-- Nothing at the front of a text goes on with a name. -/
def EndsName (cs : List Char) : Prop := ∀ c ∈ cs.head?, isWordChar c = false

theorem readName_append {name : String} (h : isIdentifier name = true) {cs : List Char}
    (hcs : EndsName cs) : readName (name.toList ++ cs) = some (name, cs) := by
  have hname := isWordChar_of_mem h
  have hrest : cs.takeWhile isWordChar = [] ∧ cs.dropWhile isWordChar = cs := by
    cases cs with
    | nil => exact ⟨rfl, rfl⟩
    | cons c cs =>
        have hc : isWordChar c = false := hcs c rfl
        rw [List.takeWhile_cons_of_neg (by simp [hc]), List.dropWhile_cons_of_neg (by simp [hc])]
        exact ⟨rfl, rfl⟩
  have htake : (name.toList ++ cs).takeWhile isWordChar = name.toList := by
    rw [List.takeWhile_append_of_pos hname, hrest.1, List.append_nil]
  have hdrop : (name.toList ++ cs).dropWhile isWordChar = cs := by
    rw [List.dropWhile_append_of_pos hname, hrest.2]
  simp only [readName]
  rw [htake, hdrop, String.ofList_toList, if_pos h]

/-- Reads the name of a field and the brace behind it. -/
def readField (cs : List Char) : Option (Piece × List Char) :=
  match readName cs with
  | some (name, '\x7d' :: rest) => some (.field name, rest)
  | _ => none

theorem readField_append {name : String} (h : isIdentifier name = true) (cs : List Char) :
    readField (name.toList ++ '\x7d' :: cs) = some (.field name, cs) := by
  have hend : EndsName ('\x7d' :: cs) := by
    rintro c ⟨⟩
    decide
  rw [readField, readName_append h hend]
  rfl

/-! ## Literals with fields -/

/-- Reads pieces up to a quote, and that quote, with a reader for single characters and fields. -/
def readQuoted (quote : Char) (next? : List Char → Option (Piece × List Char)) (cs : List Char) :
    Option (List Piece × List Char) :=
  match cs with
  | [] => none
  | c :: cs =>
    if c = quote then some ([], cs)
    else
      match next? (c :: cs) with
      | none => none
      | some (p, rest) =>
        if rest.length < (c :: cs).length then do
          let (ps, rest) ← readQuoted quote next? rest
          return (p.push ps, rest)
        else none
termination_by cs.length
decreasing_by assumption

/-- The characters begin with one that does not end the literal. -/
def GoesOn (quote : Char) (cs : List Char) : Prop := ∃ c rest, cs = c :: rest ∧ c ≠ quote

section

variable {quote : Char} {next? : List Char → Option (Piece × List Char)}

/-- One written character or field is read, and the rest as if it stood alone. -/
theorem readQuoted_append {written rest : List Char} {p : Piece} (hgoes : GoesOn quote written)
    (hnext : next? (written ++ rest) = some (p, rest)) :
    readQuoted quote next? (written ++ rest) =
      (readQuoted quote next? rest).map fun q => (p.push q.1, q.2) := by
  obtain ⟨c, cs, rfl, hc⟩ := hgoes
  have hlength : rest.length < (c :: (cs ++ rest)).length := by
    rw [List.length_cons, List.length_append]
    omega
  rw [List.cons_append] at hnext ⊢
  rw [readQuoted, if_neg hc, hnext]
  simp only [if_pos hlength]
  cases readQuoted quote next? rest <;> rfl

/-- Where a quote does not stand at the front, what is read is a character or a field, and what is
read behind it. -/
theorem exists_of_readQuoted_cons {c : Char} {cs rest : List Char} {ps : List Piece}
    (hc : c ≠ quote) (h : readQuoted quote next? (c :: cs) = some (ps, rest)) :
    ∃ p behind qs, next? (c :: cs) = some (p, behind) ∧
      readQuoted quote next? behind = some (qs, rest) ∧ ps = p.push qs := by
  rw [readQuoted, if_neg hc] at h
  cases hnext : next? (c :: cs) with
  | none =>
      rw [hnext] at h
      cases h
  | some r =>
      obtain ⟨p, behind⟩ := r
      simp only [hnext] at h
      by_cases hlength : behind.length < (c :: cs).length
      · rw [if_pos hlength] at h
        obtain ⟨⟨qs, _⟩, hread, h⟩ := Option.bind_eq_some_iff.1 h
        cases h
        exact ⟨p, behind, qs, rfl, hread, rfl⟩
      · rw [if_neg hlength] at h
        cases h

/-- Escaped characters are read as one piece. -/
theorem readQuoted_chars {escape : Char → List Char} (hgoes : ∀ c, GoesOn quote (escape c))
    (hnext : ∀ c rest, next? (escape c ++ rest) = some (.chars [c], rest))
    (cs rest : List Char) :
    readQuoted quote next? (cs.flatMap escape ++ rest) =
      (readQuoted quote next? rest).map fun q => (Piece.push (.chars cs) q.1, q.2) := by
  induction cs with
  | nil => cases h : readQuoted quote next? rest <;> simp [h, Piece.push]
  | cons c cs ih =>
      rw [List.flatMap_cons, List.append_assoc,
        readQuoted_append (hgoes c) (hnext c _), ih]
      cases readQuoted quote next? rest with
      | none => rfl
      | some q => simp only [Option.map_some, Piece.push_chars_cons c cs]

end

/-- How a language writes a literal with fields: what ends it, one character of the text, what
stands in front of the name of a field and the brace behind it, and how one character or field is
read. -/
structure Style where
  quote : Char
  escape : Char → List Char
  opening : List Char
  next? : List Char → Option (Piece × List Char)

namespace Style

/-- A piece as the language writes it. -/
def write (s : Style) : Piece → List Char
  | .chars cs => cs.flatMap s.escape
  | .field name => s.opening ++ name.toList ++ ['\x7d']

/-- The reader takes apart what is written: an escaped character and the opening of a field are
told from each other and from the end. -/
structure IsReadable (s : Style) : Prop where
  escape_goesOn : ∀ c, GoesOn s.quote (s.escape c)
  opening_goesOn : GoesOn s.quote s.opening
  next_escape : ∀ c rest, s.next? (s.escape c ++ rest) = some (.chars [c], rest)
  next_field : ∀ {name : String}, isIdentifier name = true → ∀ rest,
    s.next? (s.opening ++ (name.toList ++ '\x7d' :: rest)) = some (.field name, rest)

end Style

/-- The names of all fields are identifiers. -/
def Piece.AreNamed (ps : List Piece) : Prop := ∀ name, .field name ∈ ps → isIdentifier name = true

/-- Written pieces are read up to the closing quote, and nothing behind it is touched. -/
theorem readQuoted_pieces {s : Style} (hs : s.IsReadable) (rest : List Char) :
    ∀ {ps : List Piece}, Piece.AreNamed ps →
      readQuoted s.quote s.next? (ps.flatMap s.write ++ s.quote :: rest) =
        some (Piece.merged ps, rest) := by
  intro ps
  induction ps with
  | nil =>
      intro _
      rw [List.flatMap_nil, List.nil_append, readQuoted, if_pos rfl]
      rfl
  | cons p ps ih =>
      intro hps
      have hrest := ih fun name hname => hps name (List.mem_cons_of_mem p hname)
      rw [List.flatMap_cons, List.append_assoc]
      cases p with
      | chars cs =>
          rw [Style.write, readQuoted_chars hs.escape_goesOn hs.next_escape, hrest]
          rfl
      | field name =>
          have hname := hps name (List.mem_cons_self ..)
          have hgoes : GoesOn s.quote (s.write (.field name)) := by
            obtain ⟨c, cs, hopen, hc⟩ := hs.opening_goesOn
            exact ⟨c, cs ++ (name.toList ++ ['\x7d']), by simp [Style.write, hopen], hc⟩
          have hnext := hs.next_field hname (ps.flatMap s.write ++ s.quote :: rest)
          rw [readQuoted_append hgoes (by simpa [Style.write] using hnext), hrest]
          rfl

/-! ## F-strings -/

namespace FString

/-- Reads one character or one field of an f-string. Braces are doubled where they are meant as
such, and a line ends the literal without a quote. -/
def next? : List Char → Option (Piece × List Char)
  | '\\' :: c :: cs => (Quoted.unescape? c).map fun c => (.chars [c], cs)
  | '\x7b' :: '\x7b' :: cs => some (.chars ['\x7b'], cs)
  | '\x7d' :: '\x7d' :: cs => some (.chars ['\x7d'], cs)
  | '\x7b' :: cs => readField cs
  | c :: cs => if c ∈ ['\\', '\x7d', '\n', '\r'] then none else some (.chars [c], cs)
  | [] => none

/-- How Python writes a text with fields. -/
def style : Style := ⟨'"', escape, ['\x7b'], next?⟩

theorem next?_escape (c : Char) (rest : List Char) :
    next? (escape c ++ rest) = some (.chars [c], rest) := by
  unfold escape
  iterate 7
    split
    · subst_vars
      rfl
  · rw [List.singleton_append, next?.eq_def]
    split <;> simp_all

theorem escape_goesOn (c : Char) : GoesOn '"' (escape c) := by
  unfold escape
  iterate 7
    split
    · exact ⟨_, _, rfl, by decide⟩
  · exact ⟨c, [], rfl, ‹c ≠ '"'›⟩

/-- A brace that opens a field has a name behind it and no other brace. -/
theorem next?_field {name : String} (h : isIdentifier name = true) (rest : List Char) :
    next? ('\x7b' :: (name.toList ++ '\x7d' :: rest)) = some (.field name, rest) := by
  have hread := readField_append h rest
  obtain ⟨c, cs, hname, hc⟩ := exists_letter_of_isIdentifier h
  have hbrace : c ≠ '\x7b' := by
    rintro rfl
    exact absurd hc (by decide)
  rw [hname, List.cons_append] at hread ⊢
  rw [next?, hread]
  rintro cs' ⟨⟩
  exact hbrace rfl

theorem isReadable : style.IsReadable where
  escape_goesOn := escape_goesOn
  opening_goesOn := ⟨_, _, rfl, by decide⟩
  next_escape := next?_escape
  next_field := next?_field

end FString

/-! ## Template literals -/

namespace Template

/-- What a backslash and one more character stand for. -/
def unescape? (c : Char) : Option Char :=
  if c = '\x60' ∨ c = '$' then some c else Quoted.unescape? c

/-- Reads one character or one field of a template literal. A carriage return that is not escaped
would be read as a newline. -/
def next? : List Char → Option (Piece × List Char)
  | '\\' :: c :: cs => (unescape? c).map fun c => (.chars [c], cs)
  | '$' :: '\x7b' :: cs => readField cs
  | c :: cs => if c ∈ ['\\', '\r'] then none else some (.chars [c], cs)
  | [] => none

/-- How TypeScript writes a text with fields. -/
def style : Style := ⟨'\x60', escape, ['$', '\x7b'], next?⟩

theorem next?_escape (c : Char) (rest : List Char) :
    next? (escape c ++ rest) = some (.chars [c], rest) := by
  unfold escape
  iterate 6
    split
    · subst_vars
      rfl
  · rw [List.singleton_append, next?.eq_def]
    split <;> simp_all

theorem escape_goesOn (c : Char) : GoesOn '\x60' (escape c) := by
  unfold escape
  iterate 6
    split
    · exact ⟨_, _, rfl, by decide⟩
  · exact ⟨c, [], rfl, ‹c ≠ '\x60'›⟩

theorem isReadable : style.IsReadable where
  escape_goesOn := escape_goesOn
  opening_goesOn := ⟨_, _, rfl, by decide⟩
  next_escape := next?_escape
  next_field := fun h rest => readField_append h rest

end Template

/-! ## Concatenations -/

namespace Concatenation

/-- What stands between two operands. -/
def dot : List Char := [' ', '.', ' ']

/-- A piece as PHP writes it. -/
def write : Piece → List Char
  | .chars cs => SingleQuoted.encodeChars cs
  | .field name => '$' :: name.toList

/-- Reads one operand. -/
def operand? : List Char → Option (Piece × List Char)
  | '$' :: cs => (readName cs).map fun p => (.field p.1, p.2)
  | cs => (SingleQuoted.read cs).map fun p => (.chars p.1, p.2)

/-- Reads operands as long as there is a dot behind them. -/
def read (cs : List Char) : Option (List Piece × List Char) :=
  match operand? cs with
  | none => none
  | some (p, ' ' :: '.' :: ' ' :: rest) =>
    if rest.length < cs.length then (read rest).map fun q => (p.push q.1, q.2) else none
  | some (p, rest) => some (p.push [], rest)
termination_by cs.length

/-- Nothing at the front of a text goes on with an operand or with a concatenation. -/
def Stops (cs : List Char) : Prop := ∀ c ∈ cs.head?, isWordChar c = false ∧ c ≠ ' '

theorem operand?_write {p : Piece} (hp : ∀ name, p = .field name → isIdentifier name = true)
    {rest : List Char} (hrest : EndsName rest) : operand? (write p ++ rest) = some (p, rest) := by
  cases p with
  | field name =>
      rw [write, List.cons_append, operand?, readName_append (hp name rfl) hrest]
      rfl
  | chars cs =>
      have hread := SingleQuoted.read_encodeChars cs rest
      rw [write]
      rw [SingleQuoted.encodeChars, List.cons_append] at hread ⊢
      rw [operand?, hread]
      · rfl
      · rintro cs' ⟨⟩

/-- The last operand: what stands behind it is left. -/
theorem read_last {p : Piece} (hp : ∀ name, p = .field name → isIdentifier name = true)
    {rest : List Char} (hrest : Stops rest) : read (write p ++ rest) = some (p.push [], rest) := by
  have hend : EndsName rest := fun c hc => (hrest c hc).1
  rw [read, operand?_write hp hend]
  split
  · contradiction
  · rename_i heq
    cases heq
    exact absurd rfl (hrest ' ' rfl).2
  · rename_i heq
    cases heq
    rfl

/-- An operand and a dot behind it: the rest is read as if it stood alone. -/
theorem read_dot {p : Piece} (hp : ∀ name, p = .field name → isIdentifier name = true)
    (rest : List Char) :
    read (write p ++ (dot ++ rest)) = (read rest).map fun q => (p.push q.1, q.2) := by
  have hend : EndsName (dot ++ rest) := by
    rintro c ⟨⟩
    decide
  have hlength : rest.length < (write p ++ (dot ++ rest)).length := by
    simp only [List.length_append, dot, List.length_cons]
    omega
  rw [read, operand?_write hp hend]
  exact if_pos hlength

/-- Written operands are read to their end, and nothing behind them is touched. -/
theorem read_operands {rest : List Char} (hrest : Stops rest) (p : Piece) :
    ∀ {ps : List Piece}, Piece.AreNamed (p :: ps) →
      read (dot.intercalate ((p :: ps).map write) ++ rest) = some (Piece.merged (p :: ps), rest) := by
  intro ps
  induction ps generalizing p with
  | nil =>
      intro hps
      have hp : ∀ name, p = .field name → isIdentifier name = true :=
        fun name hname => hps name (hname ▸ List.mem_cons_self ..)
      rw [List.map_singleton, List.intercalate_singleton]
      exact read_last hp hrest
  | cons q ps ih =>
      intro hps
      have hp : ∀ name, p = .field name → isIdentifier name = true :=
        fun name hname => hps name (hname ▸ List.mem_cons_self ..)
      have hread := ih q fun name hname => hps name (List.mem_cons_of_mem p hname)
      rw [List.map_cons] at hread
      rw [List.map_cons, List.map_cons, List.intercalate_cons_cons, List.append_assoc,
        List.append_assoc, read_dot hp, hread]
      rfl

end Concatenation

end Polyglot.Text
