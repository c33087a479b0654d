import Polyglot.Expr.Render
import Polyglot.Proofs.Name
import Polyglot.Proofs.Text.Quoted
import Std.Data.String.ToInt

/-!
# Tokens of core expressions

The code of core expressions is made of words, numbers, quoted texts and a few marks. The marks are
spelled differently in each output language, but no spelling begins another one, so a text can be
cut into tokens in only one way.

* `Token.next` : takes the token off the front of a text.
* `Token.next_spelled` : the token that was written is the one that is taken.
* `chars_injective` : a text determines its tokens.
-/

set_option autoImplicit false

namespace Polyglot

/-- Punctuation and operators; a `sigil` stands in front of a variable. -/
inductive Mark where
  | opens
  | closes
  | opensList
  | closesList
  | comma
  | selector
  | sigil
  | negation
  | comparison (op : Comparison) (negated : Bool)
  | junction (op : Junction)
  deriving DecidableEq, Repr

namespace Mark

/-- Every mark. -/
def all : List Mark :=
  [.opens, .closes, .opensList, .closesList, .comma, .selector, .sigil, .negation,
    .comparison .eq false, .comparison .eq true, .comparison .lt false, .comparison .lt true,
    .comparison .gt false, .comparison .gt true, .junction .and, .junction .or]

theorem mem_all (m : Mark) : m ∈ all := by
  cases m with
  | comparison op negated => cases op <;> cases negated <;> decide
  | junction op => cases op <;> decide
  | _ => decide

/-- How a language writes a comparison. -/
def operator : Target → Comparison → Bool → String
  | .python => Comparison.pythonOperator
  | .typescript => Comparison.typeScriptOperator
  | .php => Comparison.phpOperator

/-- How a language writes a logical combination. -/
def joiner : Target → Junction → String
  | .python => Junction.pythonOperator
  | .typescript => Junction.typeScriptOperator
  | .php => Junction.phpOperator

theorem joiner_python (op : Junction) : joiner .python op = op.pythonOperator := rfl

theorem joiner_typescript (op : Junction) : joiner .typescript op = op.typeScriptOperator := rfl

theorem joiner_php (op : Junction) : joiner .php op = op.phpOperator := rfl

/-- How a language writes a mark. -/
def text (t : Target) : Mark → String
  | .opens => "("
  | .closes => ")"
  | .opensList => "["
  | .closesList => "]"
  | .comma => ", "
  | .selector =>
    match t with
    | .php => "->"
    | _ => "."
  | .sigil => "$"
  | .negation =>
    match t with
    | .python => "not "
    | _ => "!"
  | .comparison op negated => " " ++ operator t op negated ++ " "
  | .junction op => joiner t op

/-- The characters of a mark. -/
def spelled (t : Target) (m : Mark) : List Char := (m.text t).toList

/-- No spelling begins another one. -/
theorem eq_of_prefix_spelled (t : Target) :
    ∀ m ∈ all, ∀ n ∈ all, (m.spelled t).isPrefixOf (n.spelled t) = true → m = n := by
  cases t <;> decide +kernel

/-- The first mark whose spelling begins a text, with the rest of the text. -/
def next? (t : Target) (cs : List Char) : Option (Mark × List Char) :=
  (all.find? fun m => (m.spelled t).isPrefixOf cs).map fun m =>
    (m, cs.drop (m.spelled t).length)

theorem next?_spelled (t : Target) (m : Mark) (r : List Char) :
    next? t (m.spelled t ++ r) = some (m, r) := by
  have hfind : all.find? (fun n => (n.spelled t).isPrefixOf (m.spelled t ++ r)) = some m := by
    cases h : all.find? (fun n => (n.spelled t).isPrefixOf (m.spelled t ++ r)) with
    | none =>
        have hm := List.find?_eq_none.1 h m (mem_all m)
        exact absurd (List.isPrefixOf_iff_prefix.2 (List.prefix_append _ _)) hm
    | some n =>
        have hn : n.spelled t <+: m.spelled t ++ r := by
          have hp := List.find?_some h
          exact List.isPrefixOf_iff_prefix.1 hp
        have hm : m.spelled t <+: m.spelled t ++ r := List.prefix_append _ _
        rcases List.prefix_or_prefix_of_prefix hn hm with hp | hp
        · rw [eq_of_prefix_spelled t n (mem_all n) m (mem_all m) (List.isPrefixOf_iff_prefix.2 hp)]
        · rw [eq_of_prefix_spelled t m (mem_all m) n (mem_all n) (List.isPrefixOf_iff_prefix.2 hp)]
  simp [next?, hfind]

end Mark

/-- A piece of the code of a core expression. -/
inductive Token where
  | word (s : String)
  | number (n : Int)
  | text (s : String)
  | mark (m : Mark)

namespace Token

/-- The characters of a token. -/
def spelled (t : Target) : Token → List Char
  | .word s => s.toList
  | .number n => n.repr.toList
  | .text s =>
    match t with
    | .php => Text.SingleQuoted.encodeChars s.toList
    | _ => Text.Quoted.encodeChars s.toList
  | .mark m => m.spelled t

/-- The characters of several tokens. -/
def chars (t : Target) (ts : List Token) : List Char := ts.flatMap (spelled t)

@[simp] theorem chars_nil (t : Target) : chars t [] = [] := rfl

@[simp] theorem chars_cons (t : Target) (a : Token) (ts : List Token) :
    chars t (a :: ts) = a.spelled t ++ chars t ts := rfl

@[simp] theorem chars_append (t : Target) (as bs : List Token) :
    chars t (as ++ bs) = chars t as ++ chars t bs := List.flatMap_append

/-! ## Taking a token off the front -/

/-- The digits at the front of a text, with a minus sign before them if there is one. -/
def digits : List Char → List Char
  | [] => []
  | c :: cs => if c = '-' then c :: cs.takeWhile Char.isDigit else (c :: cs).takeWhile Char.isDigit

/-- Reads a quoted text. -/
def nextText (t : Target) (cs : List Char) : Option (Token × List Char) :=
  let value := match t with
    | .php => Text.SingleQuoted.read cs
    | _ => Text.Quoted.read cs
  value.map fun p => (.text (String.ofList p.1), p.2)

/-- Reads a number. -/
def nextNumber (cs : List Char) : Option (Token × List Char) :=
  (String.ofList (digits cs)).toInt?.map fun n => (.number n, cs.drop (digits cs).length)

/-- Reads the longest word. -/
def nextWord (cs : List Char) : Option (Token × List Char) :=
  some (.word (String.ofList (cs.takeWhile isWordChar)), cs.dropWhile isWordChar)

/-- Reads one token: a quoted text, a mark, a number or, if it is none of them, a word. -/
def next (t : Target) (cs : List Char) : Option (Token × List Char) :=
  (nextText t cs).or (((Mark.next? t cs).map fun p => (.mark p.1, p.2)).or
    ((nextNumber cs).or (nextWord cs)))

/-- What stands behind a word or a number ends it. -/
def Ends (r : List Char) : Prop := ∀ c cs, r = c :: cs → isWordChar c = false

theorem ends_nil : Ends [] := by
  intro c cs h
  cases h

theorem ends_cons {c : Char} {r : List Char} (h : isWordChar c = false) : Ends (c :: r) := by
  intro d ds hd
  cases hd
  exact h

/-- Whether a token can be told from what stands around it: words are identifiers, and not the one
that Python writes for a negation. -/
def IsProper : Token → Prop
  | .word s => isIdentifier s = true ∧ s ≠ "not"
  | _ => True

/-- Whether a token runs on until something ends it. -/
def Runs : Token → Prop
  | .word _ | .number _ => True
  | _ => False

theorem takeWhile_word {s : String} (hs : isIdentifier s = true) {r : List Char} (hr : Ends r) :
    (s.toList ++ r).takeWhile isWordChar = s.toList := by
  rw [List.takeWhile_append_of_pos (isWordChar_of_mem hs)]
  cases r with
  | nil => simp
  | cons c cs => simp [hr c cs rfl]

theorem dropWhile_word {s : String} (hs : isIdentifier s = true) {r : List Char} (hr : Ends r) :
    (s.toList ++ r).dropWhile isWordChar = r := by
  rw [List.dropWhile_append_of_pos (isWordChar_of_mem hs)]
  cases r with
  | nil => simp
  | cons c cs => simp [hr c cs rfl]

/-- A spelling that starts like a word is Python's negation. -/
theorem eq_negation_of_isLetter (t : Target) :
    ∀ m ∈ Mark.all, ∀ c cs, m.spelled t = c :: cs → isWordChar c = true →
      m.spelled t = ['n', 'o', 't', ' '] := by
  intro m hm c cs h hc
  have hfirst : ∀ m ∈ Mark.all, m.spelled t = ['n', 'o', 't', ' '] ∨
      ((m.spelled t).head?.any fun c => !isWordChar c) = true := by
    cases t <;> decide +kernel
  rcases hfirst m hm with hn | hn
  · exact hn
  · simp [h, hc] at hn

/-! ## Numbers -/

/-- A number is a run of digits, with a minus sign before it if it is negative. -/
theorem exists_digits (n : Int) : ∃ c ds, (∀ d ∈ c :: ds, d.isDigit = true) ∧
    (n.repr.toList = c :: ds ∨ n.repr.toList = '-' :: c :: ds) := by
  have hrepr (m : Nat) : ∃ c ds, (∀ d ∈ c :: ds, d.isDigit = true) ∧ m.repr.toList = c :: ds := by
    have hne : Nat.toDigits 10 m ≠ [] := Nat.toDigits_ne_nil
    obtain ⟨c, ds, h⟩ := List.exists_cons_of_ne_nil hne
    refine ⟨c, ds, ?_, by rw [Nat.toList_repr, h]⟩
    intro d hd
    exact Nat.isDigit_of_mem_toDigits (by omega) (by omega) (h ▸ hd)
  cases n with
  | ofNat m =>
      obtain ⟨c, ds, hds, h⟩ := hrepr m
      exact ⟨c, ds, hds, .inl h⟩
  | negSucc m =>
      obtain ⟨c, ds, hds, h⟩ := hrepr (m + 1)
      refine ⟨c, ds, hds, .inr ?_⟩
      rw [Int.repr, String.toList_append, h]
      rfl

theorem isWordChar_of_isDigit {c : Char} (h : c.isDigit = true) : isWordChar c = true := by
  simp [isWordChar, Char.isAlphanum, h]

theorem takeWhile_digits {ds : List Char} (hds : ∀ d ∈ ds, d.isDigit = true) {r : List Char}
    (hr : Ends r) : (ds ++ r).takeWhile Char.isDigit = ds := by
  rw [List.takeWhile_append_of_pos hds]
  cases r with
  | nil => simp
  | cons c cs =>
      have hc : c.isDigit = false := by
        cases hd : c.isDigit with
        | false => rfl
        | true => exact absurd (isWordChar_of_isDigit hd) (by simp [hr c cs rfl])
      simp [hc]

theorem digits_number (n : Int) {r : List Char} (hr : Ends r) :
    digits (n.repr.toList ++ r) = n.repr.toList := by
  obtain ⟨c, ds, hds, h | h⟩ := exists_digits n
  · have hc : c ≠ '-' := by
      rintro rfl
      exact absurd (hds _ (List.mem_cons_self ..)) (by decide)
    rw [h, List.cons_append, digits, if_neg hc, ← List.cons_append, takeWhile_digits hds hr]
  · rw [h, List.cons_append, digits, if_pos rfl, takeWhile_digits hds hr]

theorem nextNumber_number (n : Int) {r : List Char} (hr : Ends r) :
    nextNumber (n.repr.toList ++ r) = some (.number n, r) := by
  have hread : (String.ofList n.repr.toList).toInt? = some n := by
    rw [String.ofList_toList]
    exact Int.toInt?_repr n
  rw [nextNumber, digits_number n hr, hread, List.drop_left]
  rfl

/-! ## The token that was written -/

theorem nextText_eq_none {t : Target} {c : Char} (h : c ≠ '\'' ∧ c ≠ '"') (cs : List Char) :
    nextText t (c :: cs) = none := by
  cases t <;> simp [nextText, Text.Quoted.read, Text.SingleQuoted.read, h.1, h.2]

/-- No mark begins a text that starts like a number. -/
theorem next?_eq_none_of_number (t : Target) (n : Int) (r : List Char) :
    Mark.next? t (n.repr.toList ++ r) = none := by
  have hfirst : ∀ m ∈ Mark.all, ((m.spelled t).head?.any fun c => !c.isDigit && c != '-') = true ∨
      m.spelled t = ['-', '>'] := by
    cases t <;> decide +kernel
  have hnone : Mark.all.find? (fun m => (m.spelled t).isPrefixOf (n.repr.toList ++ r)) =
      none := by
    rw [List.find?_eq_none]
    intro m hm hp
    obtain ⟨u, hu⟩ := List.isPrefixOf_iff_prefix.1 hp
    obtain ⟨c, ds, hds, hn⟩ := exists_digits n
    have hc := hds c (List.mem_cons_self ..)
    rcases hfirst m hm with hany | harrow
    · obtain ⟨d, hd, hneither⟩ := Option.any_eq_true _ _ |>.1 hany
      obtain ⟨hdigit, hminus⟩ : d.isDigit = false ∧ d ≠ '-' := by simpa using hneither
      obtain ⟨s, hs⟩ : ∃ s, m.spelled t = d :: s := List.head?_eq_some_iff.1 hd
      rcases hn with hn | hn
      · rw [hs, hn] at hu
        obtain ⟨rfl, -⟩ := List.cons.inj hu
        rw [hc] at hdigit
        cases hdigit
      · rw [hs, hn] at hu
        exact hminus (List.cons.inj hu).1
    · rw [harrow] at hu
      rcases hn with hn | hn
      · rw [hn] at hu
        obtain ⟨rfl, -⟩ := List.cons.inj hu
        exact absurd hc (by decide)
      · rw [hn] at hu
        obtain ⟨rfl, -⟩ := List.cons.inj (List.cons.inj hu).2
        exact absurd hc (by decide)
  simp only [Mark.next?, hnone, Option.map_none]

/-- No mark begins a text that starts with an identifier other than Python's negation. -/
theorem next?_eq_none_of_word (t : Target) {s : String} (hs : isIdentifier s = true)
    (hne : s ≠ "not") {r : List Char} (hr : Ends r) : Mark.next? t (s.toList ++ r) = none := by
  have hspelled : ∀ m ∈ Mark.all, m.spelled t ≠ [] := by cases t <;> decide +kernel
  have hnone : Mark.all.find? (fun m => (m.spelled t).isPrefixOf (s.toList ++ r)) = none := by
    rw [List.find?_eq_none]
    intro m hm hp
    obtain ⟨c, cs, hcs, hc⟩ := exists_letter_of_isIdentifier hs
    obtain ⟨d, ds, hsp⟩ := List.exists_cons_of_ne_nil (hspelled m hm)
    obtain ⟨u, hu⟩ := List.isPrefixOf_iff_prefix.1 hp
    have hd : d = c := by
      rw [hsp, hcs] at hu
      exact (List.cons.inj hu).1
    have hnot := eq_negation_of_isLetter t m hm d ds hsp (hd ▸ isWordChar_of_isLetter hc)
    -- the word runs up to the blank of the negation
    have hrun := takeWhile_word hs hr
    rw [← hu, hnot] at hrun
    apply hne
    rw [← String.toList_inj, ← hrun]
    rfl
  simp only [Mark.next?, hnone, Option.map_none]

theorem not_isDigit_of_isLetter {c : Char} (h : isLetter c = true) : c.isDigit = false := by
  have hA : 'A'.val.toNat = 65 := rfl
  have ha : 'a'.val.toNat = 97 := rfl
  have h9 : '9'.val.toNat = 57 := rfl
  delta isLetter Char.isAlpha Char.isUpper Char.isLower at h
  simp only [Bool.or_eq_true, Bool.and_eq_true, decide_eq_true_eq, beq_iff_eq,
    UInt32.le_iff_toNat_le, ge_iff_le] at h
  rw [Char.isDigit, Bool.and_eq_false_iff]
  rcases h with (h | h) | rfl
  · exact .inr (by simp only [decide_eq_false_iff_not, UInt32.le_iff_toNat_le]; omega)
  · exact .inr (by simp only [decide_eq_false_iff_not, UInt32.le_iff_toNat_le]; omega)
  · exact .inr (by decide)

theorem nextNumber_eq_none {c : Char} (h : isLetter c = true) (cs : List Char) :
    nextNumber (c :: cs) = none := by
  have hminus : c ≠ '-' := by
    rintro rfl
    exact absurd h (by decide)
  have hdigits : digits (c :: cs) = [] := by
    rw [digits, if_neg hminus, List.takeWhile_cons, not_isDigit_of_isLetter h]
    rfl
  have hempty : "".toInt? = none := by
    rw [String.toInt?_eq_none_iff, ← Bool.not_eq_true, String.isInt_iff]
    simp [String.isNat_iff]
  rw [nextNumber, hdigits, String.ofList_nil, hempty]
  rfl

/-- A letter, a digit or a minus sign does not open a quoted text. -/
theorem ne_quote_of_isWordChar {c : Char} (h : isWordChar c = true ∨ c = '-') :
    c ≠ '\'' ∧ c ≠ '"' := by
  refine ⟨?_, ?_⟩
  · rintro rfl
    exact absurd h (by decide)
  · rintro rfl
    exact absurd h (by decide)

/-- The token that was written is the one that is taken off the front. -/
theorem next_spelled (t : Target) {a : Token} (ha : a.IsProper) {r : List Char}
    (hr : a.Runs → Ends r) : next t (a.spelled t ++ r) = some (a, r) := by
  cases a with
  | word s =>
      obtain ⟨c, cs, hcs, hc⟩ := exists_letter_of_isIdentifier ha.1
      have hend := hr trivial
      have htext : nextText t (s.toList ++ r) = none := by
        rw [hcs]
        exact nextText_eq_none (ne_quote_of_isWordChar (.inl (isWordChar_of_isLetter hc))) _
      have hmark := next?_eq_none_of_word t ha.1 ha.2 hend
      have hnumber : nextNumber (s.toList ++ r) = none := by
        rw [hcs]
        exact nextNumber_eq_none hc _
      rw [spelled, next, htext, hmark, hnumber]
      simp [nextWord, takeWhile_word ha.1 hend, dropWhile_word ha.1 hend]
  | number n =>
      have hend := hr trivial
      have htext : nextText t (n.repr.toList ++ r) = none := by
        obtain ⟨c, ds, hds, h | h⟩ := exists_digits n
        · rw [h]
          have hc := isWordChar_of_isDigit (hds c (List.mem_cons_self ..))
          exact nextText_eq_none (ne_quote_of_isWordChar (.inl hc)) _
        · rw [h]
          exact nextText_eq_none (ne_quote_of_isWordChar (.inr rfl)) _
      rw [spelled, next, htext, next?_eq_none_of_number, nextNumber_number n hend]
      rfl
  | text s =>
      have htext : nextText t ((Token.text s).spelled t ++ r) = some (.text s, r) := by
        cases t <;>
          simp [nextText, spelled, Text.Quoted.read_encodeChars, Text.SingleQuoted.read_encodeChars]
      rw [next, htext]
      rfl
  | mark m =>
      have hquote : ∀ m ∈ Mark.all,
          ((m.spelled t).head?.any fun c => c != '\'' && c != '"') = true := by
        cases t <;> decide +kernel
      have htext : nextText t (m.spelled t ++ r) = none := by
        obtain ⟨c, hc, hneither⟩ := Option.any_eq_true _ _ |>.1 (hquote m (Mark.mem_all m))
        have hne : c ≠ '\'' ∧ c ≠ '"' := by simpa using hneither
        obtain ⟨s, hs⟩ : ∃ s, m.spelled t = c :: s := List.head?_eq_some_iff.1 hc
        rw [hs]
        exact nextText_eq_none hne _
      rw [spelled, next, htext, Mark.next?_spelled]
      rfl

/-! ## Texts and their tokens -/

/-- Whether tokens can stand one behind the other without running into each other. -/
def Separate (t : Target) : List Token → Prop
  | [] => True
  | a :: ts => a.IsProper ∧ (a.Runs → Ends (chars t ts)) ∧ Separate t ts

theorem spelled_ne_nil (t : Target) {a : Token} (ha : a.IsProper) : a.spelled t ≠ [] := by
  intro h
  cases a with
  | word s =>
      obtain ⟨c, cs, hcs, -⟩ := exists_letter_of_isIdentifier ha.1
      rw [spelled, hcs] at h
      cases h
  | number n =>
      obtain ⟨c, ds, -, hn | hn⟩ := exists_digits n
      · rw [spelled, hn] at h
        cases h
      · rw [spelled, hn] at h
        cases h
  | text s => cases t <;> cases h
  | mark m =>
      have hspelled : ∀ m ∈ Mark.all, m.spelled t ≠ [] := by cases t <;> decide +kernel
      exact hspelled m (Mark.mem_all m) h

/-- A text determines its tokens. -/
theorem chars_injective (t : Target) : ∀ {as bs : List Token}, Separate t as → Separate t bs →
    chars t as = chars t bs → as = bs := by
  intro as
  induction as with
  | nil =>
      intro bs _ hbs h
      cases bs with
      | nil => rfl
      | cons b bs =>
          rw [chars_nil, chars_cons] at h
          exact absurd (List.append_eq_nil_iff.1 h.symm).1 (spelled_ne_nil t hbs.1)
  | cons a as ih =>
      intro bs has hbs h
      cases bs with
      | nil =>
          rw [chars_nil, chars_cons] at h
          exact absurd (List.append_eq_nil_iff.1 h).1 (spelled_ne_nil t has.1)
      | cons b bs =>
          have hnext : some (a, chars t as) = some (b, chars t bs) := by
            rw [← next_spelled t has.1 has.2.1, ← next_spelled t hbs.1 hbs.2.1]
            exact congrArg (next t) h
          obtain ⟨rfl, hrest⟩ := Prod.mk.inj (Option.some.inj hnext)
          rw [ih has.2.2 hbs.2.2 hrest]

end Token

end Polyglot
