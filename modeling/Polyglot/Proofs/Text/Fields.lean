import Polyglot.Proofs.Text.Interpolated

/-!
# Reading f-strings with code in their fields

The field of an f-string holds code up to the brace that matches the one in front of it. Brackets in
the code are counted, and not in its string literals. The quote that ends the f-string and a
backslash cannot stand in a field at all, and a field cannot begin with a brace: two braces are one
character of the text.

* `FString.CodeState`, `FString.readCode` : reading the code of a field.
* `FString.IsField` : code that can stand in a field; by `readCode_eq_self_iff` just such code is
  read as it is.
* `FString.read` : reading pieces up to the closing quote.
* `FString.read_write_iff` : **pieces are read as they are written just if all code in them can
  stand in a field.**
-/

set_option autoImplicit false

namespace Polyglot.Text.FString

/-! ## Code -/

/-- How many brackets are open behind some code, and whether a string literal is. -/
structure CodeState where
  depth : Nat
  quoted : Bool
  deriving DecidableEq, Repr

namespace CodeState

/-- Nothing is open. -/
def start : CodeState := ⟨0, false⟩

/-- One character of the code of a field. There is no state behind a character that cannot stand in
a field, or that ends it. -/
def step? (s : CodeState) (c : Char) : Option CodeState :=
  if c = '"' ∨ c = '\\' then none
  else if s.quoted then some { s with quoted := c != '\'' }
  else if c = '\'' then some { s with quoted := true }
  else if c = '(' ∨ c = '[' ∨ c = '\x7b' then some { s with depth := s.depth + 1 }
  else if c = '\x7d' ∧ s.depth = 0 then none
  else if c = ')' ∨ c = ']' ∨ c = '\x7d' then some { s with depth := s.depth - 1 }
  else some s

/-- All characters of some code. -/
def run? (s : CodeState) (cs : List Char) : Option CodeState := cs.foldlM step? s

@[simp] theorem run?_nil (s : CodeState) : s.run? [] = some s := rfl

theorem run?_cons (s : CodeState) (c : Char) (cs : List Char) :
    s.run? (c :: cs) = (s.step? c).bind fun s => s.run? cs := rfl

/-- A brace ends the code where nothing is open. -/
theorem step?_start_brace : start.step? '\x7d' = none := rfl

end CodeState

open CodeState

/-- Reads code up to the brace that ends it, and gives what is behind the brace. -/
def readCode (s : CodeState) : List Char → Option (List Char × List Char)
  | [] => none
  | c :: cs =>
    if c = '\x7d' ∧ s = start then some ([], cs)
    else (s.step? c).bind fun s => (readCode s cs).map fun r => (c :: r.1, r.2)

/-- What is read is in front of the brace. -/
theorem eq_of_readCode {s : CodeState} {cs : List Char} {r : List Char × List Char}
    (h : readCode s cs = some r) : cs = r.1 ++ '\x7d' :: r.2 := by
  induction cs generalizing s r with
  | nil => cases h
  | cons c cs ih =>
      rw [readCode] at h
      by_cases hend : c = '\x7d' ∧ s = start
      · rw [if_pos hend] at h
        cases h
        rw [hend.1, List.nil_append]
      · rw [if_neg hend] at h
        obtain ⟨s', -, h⟩ := Option.bind_eq_some_iff.1 h
        obtain ⟨r', hread, rfl⟩ := Option.map_eq_some_iff.1 h
        rw [ih hread]
        rfl

/-- Code is read as it is just if it closes what it opens, and nothing else ends in it. -/
theorem readCode_eq_self_iff {s : CodeState} {cs : List Char} (rest : List Char) :
    readCode s (cs ++ '\x7d' :: rest) = some (cs, rest) ↔ s.run? cs = some start := by
  induction cs generalizing s with
  | nil =>
      rw [List.nil_append, readCode, run?_nil, Option.some_inj]
      by_cases hs : s = start
      · simp [hs]
      · rw [if_neg fun h => hs h.2]
        refine iff_of_false (fun h => ?_) hs
        obtain ⟨s', -, h⟩ := Option.bind_eq_some_iff.1 h
        obtain ⟨r, -, h⟩ := Option.map_eq_some_iff.1 h
        cases h
  | cons c cs ih =>
      rw [List.cons_append, readCode, run?_cons]
      by_cases hend : c = '\x7d' ∧ s = start
      · obtain ⟨rfl, rfl⟩ := hend
        rw [if_pos ⟨rfl, rfl⟩, step?_start_brace]
        simp
      · rw [if_neg hend]
        cases s.step? c with
        | none => simp
        | some s' =>
            rw [Option.bind_some, Option.bind_some, ← ih]
            cases readCode s' (cs ++ '\x7d' :: rest) with
            | none => simp
            | some r => simp [Prod.ext_iff]

/-- Code that can stand in a field. -/
def IsField (code : String) : Prop :=
  code.toList.head? ≠ some '\x7b' ∧ start.run? code.toList = some start

instance (code : String) : Decidable (IsField code) := inferInstanceAs (Decidable (_ ∧ _))

/-! ## Pieces -/

/-- Reads one character or one field of an f-string. -/
def nextCode? : List Char → Option (Piece × List Char)
  | '\x7b' :: '\x7b' :: cs => some (.chars ['\x7b'], cs)
  | '\x7b' :: cs => (readCode start cs).map fun r => (.field (String.ofList r.1), r.2)
  | cs => next? cs

/-- Reads an f-string behind its opening quote, up to the closing one. -/
def read (cs : List Char) : Option (List Piece × List Char) := readQuoted '"' nextCode? cs

/-- A character of the text is read as before, whatever fields hold. -/
theorem nextCode?_escape (c : Char) (rest : List Char) :
    nextCode? (escape c ++ rest) = some (.chars [c], rest) := by
  by_cases hbrace : c = '\x7b'
  · rw [hbrace]
    rfl
  · obtain ⟨d, ds, hd, hne⟩ : ∃ d ds, escape c = d :: ds ∧ d ≠ '\x7b' := by
      unfold escape
      iterate 5
        split
        · exact ⟨_, _, rfl, by decide⟩
      split
      · exact ⟨_, _, rfl, by decide⟩
      · exact ⟨c, [], rfl, hbrace⟩
    have hnext := next?_escape c rest
    rw [hd, List.cons_append] at hnext ⊢
    rw [nextCode?, hnext]
    · exact fun cs h => hne (List.cons.inj h).1
    · exact fun cs h => hne (List.cons.inj h).1

/-- Behind a brace that no other one follows, code is read. -/
theorem nextCode?_brace {cs : List Char} (hhead : cs.head? ≠ some '\x7b') :
    nextCode? ('\x7b' :: cs) =
      (readCode start cs).map fun r => (.field (String.ofList r.1), r.2) := by
  rw [nextCode?]
  rintro ds rfl
  exact hhead rfl

/-- What a brace begins is one more brace, or a field. -/
theorem exists_of_nextCode?_brace {cs rest : List Char} {p : Piece}
    (h : nextCode? ('\x7b' :: cs) = some (p, rest)) :
    p = .chars ['\x7b'] ∨ ∃ code, p = .field code ∧ cs = code.toList ++ '\x7d' :: rest := by
  by_cases hhead : cs.head? = some '\x7b'
  · obtain ⟨ds, rfl⟩ := List.head?_eq_some_iff.1 hhead
    cases h
    exact .inl rfl
  · rw [nextCode?_brace hhead] at h
    obtain ⟨r, hread, h⟩ := Option.map_eq_some_iff.1 h
    cases h
    exact .inr ⟨_, rfl, by rw [String.toList_ofList]; exact eq_of_readCode hread⟩

/-- A field is read as it is just if its code can stand in a field. -/
theorem nextCode?_field_iff {code : String} (rest : List Char) :
    nextCode? ('\x7b' :: (code.toList ++ '\x7d' :: rest)) = some (.field code, rest) ↔
      IsField code := by
  have hcodeHead : (code.toList ++ '\x7d' :: rest).head? = some '\x7b' ↔
      code.toList.head? = some '\x7b' := by
    cases code.toList <;> simp
  by_cases hhead : code.toList.head? = some '\x7b'
  · refine iff_of_false (fun h => ?_) fun h => h.1 hhead
    obtain ⟨cs, hcs⟩ := List.head?_eq_some_iff.1 (hcodeHead.2 hhead)
    rw [hcs] at h
    cases h
  · rw [nextCode?_brace (mt hcodeHead.1 hhead), IsField, and_iff_right hhead,
      ← readCode_eq_self_iff rest]
    cases readCode start (code.toList ++ '\x7d' :: rest) with
    | none => simp
    | some r => simp [Prod.ext_iff, ← String.toList_inj]

theorem write_field_append (code : String) (rest : List Char) :
    style.write (.field code) ++ rest = '\x7b' :: (code.toList ++ '\x7d' :: rest) := by
  simp [style, Style.write]

variable {ps qs : List Piece} (rest : List Char)

/-- Where all code can stand in a field, the pieces are read up to the closing quote. -/
theorem read_write (h : ∀ code, .field code ∈ ps → IsField code) :
    read (ps.flatMap style.write ++ '"' :: rest) = some (Piece.merged ps, rest) := by
  induction ps with
  | nil =>
      rw [read, List.flatMap_nil, List.nil_append, readQuoted, if_pos rfl]
      rfl
  | cons p ps ih =>
      have hrest := ih fun code hcode => h code (List.mem_cons_of_mem p hcode)
      rw [read] at hrest ⊢
      rw [List.flatMap_cons, List.append_assoc]
      cases p with
      | chars cs =>
          rw [Style.write, style, readQuoted_chars escape_goesOn nextCode?_escape]
          rw [style] at hrest
          rw [hrest]
          rfl
      | field code =>
          have hnext := (nextCode?_field_iff (ps.flatMap style.write ++ '"' :: rest)).2
            (h code (List.mem_cons_self ..))
          rw [← write_field_append] at hnext
          have hgoes : GoesOn '"' (style.write (.field code)) :=
            ⟨'\x7b', code.toList ++ ['\x7d'], by simp [style, Style.write], by decide⟩
          rw [readQuoted_append hgoes hnext, hrest]
          rfl

/-- Where the pieces that are read show what the written ones show, all code can stand in a field. A
field that is not read as such is read as other code, or as a brace. -/
theorem isField_of_read {rest : List Char}
    (h : read (ps.flatMap style.write ++ '"' :: rest) = some (qs, rest))
    (hsymbols : qs.flatMap Piece.symbols = ps.flatMap Piece.symbols) :
    ∀ code, .field code ∈ ps → IsField code := by
  induction ps generalizing qs with
  | nil => exact fun code hcode => nomatch hcode
  | cons p ps ih =>
      rw [List.flatMap_cons] at hsymbols
      rw [read, List.flatMap_cons, List.append_assoc] at h
      cases p with
      | chars cs =>
          rw [Style.write, style, readQuoted_chars escape_goesOn nextCode?_escape] at h
          obtain ⟨⟨qs, _⟩, hread, h⟩ := Option.map_eq_some_iff.1 h
          cases h
          rw [Piece.symbols_push] at hsymbols
          have hps := ih hread (List.append_cancel_left hsymbols)
          exact fun code hcode => hps code (by simpa using hcode)
      | field code =>
          rw [write_field_append] at h
          obtain ⟨p, behind, qs, hnext, hread, rfl⟩ := exists_of_readQuoted_cons (by decide) h
          rw [Piece.symbols_push] at hsymbols
          rcases exists_of_nextCode?_brace hnext with rfl | ⟨code', rfl, hbehind⟩
          · simp [Piece.symbols] at hsymbols
          · obtain ⟨rfl, hqs⟩ : code' = code ∧
                qs.flatMap Piece.symbols = ps.flatMap Piece.symbols := by
              simpa [Piece.symbols] using hsymbols
            rw [List.append_cancel_left_eq, List.cons_inj_right] at hbehind
            subst hbehind
            simpa using And.intro ((nextCode?_field_iff _).1 hnext) (ih hread hqs)

/-- **Pieces are read as they are written just if all code in them can stand in a field.** -/
theorem read_write_iff : read (ps.flatMap style.write ++ '"' :: rest) =
    some (Piece.merged ps, rest) ↔ ∀ code, .field code ∈ ps → IsField code :=
  ⟨fun h => isField_of_read h (Piece.symbols_merged ps), read_write rest⟩

end Polyglot.Text.FString
