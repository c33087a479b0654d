import Polyglot.Proofs.Brackets.Hidden
import Polyglot.Proofs.Expr.Token
import Polyglot.Text.Interpolated

/-!
# Brackets in texts

How texts that are put together are scanned, and the texts that are well bracketed by themselves:
names, numbers and string literals, whatever they hold.

* `Text.intercalate_of_append` : from texts behind each other to texts with separators.
* `Shifts.append`, `WellBracketed.shifts` : scans of texts behind each other.
* `isInert`, `isSolid` : a text without brackets and quotes, and without marks of operators.
* `Text.Quoted.hides_encode`, `Text.SingleQuoted.hides_encode` : string literals.
* `Text.FString.hiddenRun_encode`, `Text.Template.hiddenRun_encode` : the text between the quotes of
  other literals.
-/

set_option autoImplicit false

namespace Polyglot

open Brackets

variable {t : Target} {fs gs hs : List Frame} {a b : String}

/-! ## Texts behind each other -/

/-- What holds of texts and of a separator, and passes on to texts behind each other, holds of the
texts with separators between them. -/
theorem Text.intercalate_of_append {P : String → Prop} (hempty : P "")
    (happend : ∀ {a b : String}, P a → P b → P (a ++ b)) {sep : String} (hsep : P sep)
    {ss : List String} (h : ∀ s ∈ ss, P s) : P (sep.intercalate ss) := by
  induction ss with
  | nil => exact hempty
  | cons s ss ih =>
      have hs := h s (List.mem_cons_self ..)
      have hrest := ih fun s' hs' => h s' (List.mem_cons_of_mem _ hs')
      by_cases hne : ss = []
      · subst hne
        rw [String.intercalate_singleton]
        exact hs
      · rw [String.intercalate_cons_of_ne_nil hne]
        exact happend (happend hs hsep) hrest

theorem Brackets.Shifts.append (ha : Shifts t fs gs a) (hb : Shifts t gs hs b) :
    Shifts t fs hs (a ++ b) := by
  rw [Shifts] at ha hb ⊢
  rw [String.toList_append, run_append, ha]
  exact hb

/-- A text is scanned the same behind more open brackets. -/
theorem Brackets.Shifts.under (h : Shifts t fs gs a) (below : List Frame) :
    Shifts t (fs ++ below) (gs ++ below) a := run_under h below

/-- A well-bracketed text can stand anywhere in code. -/
theorem WellBracketed.shifts (h : WellBracketed t a) (fs : List Frame) : Shifts t fs fs a :=
  Shifts.under h fs

namespace Brackets.Shifts

/-- A text whose scan is evaluated. -/
theorem lit (h : run t ⟨.code, fs⟩ a.toList = some ⟨.code, gs⟩) : Shifts t fs gs a := h

/-- A text with one behind it whose scan is evaluated. -/
theorem add (ha : Shifts t fs gs a) (hb : run t ⟨.code, gs⟩ b.toList = some ⟨.code, hs⟩) :
    Shifts t fs hs (a ++ b) := ha.append hb

/-- A text with a well-bracketed one behind it. -/
theorem wrap (ha : Shifts t fs gs a) (hb : WellBracketed t b) : Shifts t fs gs (a ++ b) :=
  ha.append (hb.shifts gs)

end Brackets.Shifts

namespace WellBracketed

theorem empty : WellBracketed t "" := .lit rfl

/-- Well-bracketed texts with well-bracketed separators. -/
theorem intercalate {sep : String} (hsep : WellBracketed t sep) {ss : List String}
    (h : ∀ s ∈ ss, WellBracketed t s) : WellBracketed t (sep.intercalate ss) :=
  Text.intercalate_of_append empty (fun ha hb => Shifts.wrap ha hb) hsep h

end WellBracketed

/-! ## Names and numbers -/

/-- The characters that a scan does not pass over in code. -/
def Brackets.delimiters : List Char :=
  ['(', ')', '[', ']', '\x7b', '\x7d', '\'', '"', '\x60']

/-- Whether a text holds no brackets and no quotes. -/
def isInert (s : String) : Bool := s.toList.all fun c => !delimiters.contains c

/-- Whether a text holds no brackets, no quotes and no marks of operators. -/
def isSolid (s : String) : Bool := s.toList.all fun c => !(marks ++ delimiters).contains c

theorem isInert_of_isSolid (h : isSolid a = true) : isInert a = true := by
  rw [isSolid, List.all_eq_true] at h
  rw [isInert, List.all_eq_true]
  intro c hc
  have hno := h c hc
  simp only [List.contains_append, Bool.not_or, Bool.and_eq_true] at hno
  exact hno.2

/-- Whether all accepted texts are inert. -/
def OnlyInert (ok : String → Bool) : Prop := ∀ s, ok s = true → isInert s = true

/-- Whether all accepted texts are solid. -/
def OnlySolid (ok : String → Bool) : Prop := ∀ s, ok s = true → isSolid s = true

theorem OnlySolid.inert {ok : String → Bool} (hok : OnlySolid ok) : OnlyInert ok :=
  fun s h => isInert_of_isSolid (hok s h)

/-- A character of a kind is none of those that are not of it. -/
theorem not_contains_of_all {p : Char → Bool} {cs : List Char}
    (hcs : (cs.all fun c => !p c) = true) {c : Char} (hc : p c = true) :
    (!cs.contains c) = true := by
  have hmem : c ∉ cs := by
    intro hmem
    have hno := List.all_eq_true.1 hcs c hmem
    simp [hc] at hno
  simpa using hmem

/-- Identifiers are solid. -/
theorem onlySolid_isIdentifier : OnlySolid isIdentifier := by
  intro a h
  rw [isSolid, List.all_eq_true]
  exact fun c hc => not_contains_of_all (by decide) (isWordChar_of_mem h c hc)

/-- The text of an integer is made of digits, but for its sign. -/
theorem isDigit_of_mem_int {n : Int} {c : Char} (hc : c ∈ (toString n).toList) :
    c.isDigit = true ∨ c = '-' := by
  obtain ⟨d, ds, hds, h⟩ := Token.exists_digits n
  replace hc : c ∈ n.repr.toList := hc
  rcases h with h | h
  · rw [h] at hc
    exact .inl (hds c hc)
  · rw [h] at hc
    rcases List.mem_cons.1 hc with rfl | hc
    · exact .inr rfl
    · exact .inl (hds c hc)

theorem isSolid_int (n : Int) : isSolid (toString n) = true := by
  rw [isSolid, List.all_eq_true]
  intro c hc
  rcases isDigit_of_mem_int hc with h | rfl
  · exact not_contains_of_all (p := Char.isDigit) (by decide) h
  · decide

theorem Brackets.codeStep_of_not_mem {c : Char} (h : c ∉ delimiters) (fs : List Frame) :
    codeStep t fs c = some ⟨.code, fs⟩ := by
  simp only [delimiters, List.mem_cons, List.not_mem_nil, or_false, not_or] at h
  obtain ⟨h₁, h₂, h₃, h₄, h₅, h₆, h₇, h₈, h₉⟩ := h
  simp [codeStep, quote?, opened?, *]

theorem WellBracketed.of_isInert (h : isInert a = true) : WellBracketed t a := by
  rw [isInert, List.all_eq_true] at h
  rw [WellBracketed, Shifts]
  generalize a.toList = cs at h
  induction cs with
  | nil => rfl
  | cons c cs ih =>
      have hc : c ∉ delimiters := by simpa using h c (List.mem_cons_self ..)
      rw [run_cons, step, codeStep_of_not_mem hc]
      exact ih fun d hd => h d (List.mem_cons_of_mem _ hd)

theorem Brackets.Hides.of_isSolid (h : isSolid a = true) : Hides t fs fs a := by
  rw [isSolid, List.all_eq_true] at h
  rw [Hides]
  generalize a.toList = cs at h
  induction cs with
  | nil => rfl
  | cons c cs ih =>
      have hc : c ∉ marks ++ delimiters := by simpa using h c (List.mem_cons_self ..)
      obtain ⟨hmark, hdelimiter⟩ : c ∉ marks ∧ c ∉ delimiters := by
        simpa only [List.mem_append, not_or] using hc
      rw [hiddenRun_cons, hiddenStep, if_neg fun hstop => hmark hstop.2, step,
        codeStep_of_not_mem hdelimiter]
      exact ih fun d hd => h d (List.mem_cons_of_mem _ hd)

/-! ## String literals -/

namespace Brackets

theorem hiddenStep_inside (q : Quote) (fs : List Frame) (c : Char) :
    hiddenStep t ⟨.inside q, fs⟩ c = some ⟨insideStep q c, fs⟩ := rfl

/-- A literal that is opened, whose characters keep the scan inside, and that is closed. -/
theorem hiddenRun_literal {q : Quote} (hq : quote? t q.char = some q) {cs : List Char}
    (hcs : hiddenRun t ⟨.inside q, fs⟩ cs = some ⟨.inside q, fs⟩) :
    hiddenRun t ⟨.code, fs⟩ (q.char :: (cs ++ [q.char])) = some ⟨.code, fs⟩ := by
  have hmark : ¬((⟨.code, fs⟩ : State) = ⟨.code, []⟩ ∧ q.char ∈ marks) := by
    rintro ⟨-, h⟩
    revert h
    cases q <;> decide
  have hopen : hiddenStep t ⟨.code, fs⟩ q.char = some ⟨.inside q, fs⟩ := by
    rw [hiddenStep, if_neg hmark, step, codeStep, hq]
  have hclose : hiddenStep t ⟨.inside q, fs⟩ q.char = some ⟨.code, fs⟩ := by
    cases q <;> rfl
  rw [hiddenRun_cons, hopen, Option.bind_some, hiddenRun_append, hcs, Option.bind_some,
    hiddenRun_cons, hclose]
  rfl

/-- Escaped characters keep the scan inside if every one of them does. -/
theorem hiddenRun_flatMap {s : State} {escape : Char → List Char}
    (h : ∀ c, hiddenRun t s (escape c) = some s) (cs : List Char) :
    hiddenRun t s (cs.flatMap escape) = some s := by
  induction cs with
  | nil => rfl
  | cons c cs ih =>
      rw [List.flatMap_cons, hiddenRun_append, h]
      exact ih

/-- A character that means nothing inside a literal. -/
theorem insideStep_of_ne {q : Quote} {c : Char} (hback : c ≠ '\\') (hq : c ≠ q.char)
    (hdollar : c ≠ '$' ∨ q ≠ .backtick) : insideStep q c = .inside q := by
  have hno : ¬(c = '$' ∧ q = .backtick) := fun h => hdollar.elim (· h.1) (· h.2)
  rw [insideStep, if_neg hback, if_neg hq, if_neg hno]

end Brackets

namespace Text

theorem Quoted.hiddenRun_hex2 (q : Quote) {n : Nat} (hn : n < 256) :
    hiddenRun t ⟨.inside q, fs⟩ (hex2 n) = some ⟨.inside q, fs⟩ := by
  have hdigit : ∀ d < 16, insideStep q (Nat.digitChar d) = .inside q := by
    cases q <;> decide
  have hhigh := hdigit (n / 16) (by omega)
  have hlow := hdigit (n % 16) (by omega)
  rw [hex2, hiddenRun_cons, hiddenStep_inside, hhigh, Option.bind_some, hiddenRun_cons,
    hiddenStep_inside, hlow]
  rfl

/-- What stands for a character in a literal keeps the scan inside. -/
theorem Quoted.hiddenRun_escape {q : Quote} (hq : q ≠ .backtick) (c : Char) :
    hiddenRun t ⟨.inside q, fs⟩ (escape q.char c) = some ⟨.inside q, fs⟩ := by
  unfold escape
  split
  · rfl
  split
  · rfl
  split
  · rfl
  split
  · rfl
  split
  · rfl
  split
  · rename_i hcontrol
    exact hiddenRun_hex2 q (toNat_lt_of_isControl hcontrol)
  · rename_i hback _ _ _ hquote _
    rw [hiddenRun_cons, hiddenStep_inside, insideStep_of_ne hback hquote (.inr hq)]
    rfl

/-- A literal with escapes by letter, in a language that has both quotes. -/
theorem Quoted.hides_encode (ht : t ≠ .php) (s : String) : Hides t fs fs (encode s) := by
  obtain ⟨q, hback, hmark, hq⟩ : ∃ q : Quote, q ≠ .backtick ∧ mark s.toList = q.char ∧
      quote? t q.char = some q := by
    rcases mark_eq s.toList with h | h
    · exact ⟨.double, by decide, h, by simp [quote?, Quote.char, ht]⟩
    · exact ⟨.single, by decide, h, rfl⟩
  rw [Hides, encode, String.toList_ofList, encodeChars, hmark]
  exact hiddenRun_literal hq (hiddenRun_flatMap (hiddenRun_escape hback) s.toList)

theorem Quoted.wellBracketed_encode (ht : t ≠ .php) (s : String) : WellBracketed t (encode s) :=
  (hides_encode ht s).shifts

theorem SingleQuoted.hiddenRun_escape (c : Char) :
    hiddenRun t ⟨.inside .single, fs⟩ (escape c) = some ⟨.inside .single, fs⟩ := by
  unfold escape
  split
  · rfl
  split
  · rfl
  · rename_i hback hquote
    rw [hiddenRun_cons, hiddenStep_inside,
      insideStep_of_ne (q := .single) hback hquote (.inr (by decide))]
    rfl

/-- A literal in single quotes may hold newlines and brackets of any kind. -/
theorem SingleQuoted.hides_encode (s : String) : Hides t fs fs (encode s) := by
  rw [Hides, encode, String.toList_ofList, encodeChars]
  exact hiddenRun_literal (q := .single) rfl (hiddenRun_flatMap hiddenRun_escape s.toList)

theorem SingleQuoted.wellBracketed_encode (s : String) : WellBracketed t (encode s) :=
  (hides_encode s).shifts

example : WellBracketed .php "f('it\\'s [(')" := by decide

example : ¬WellBracketed .php "f([)]" := by decide

theorem FString.hiddenRun_escape (c : Char) :
    hiddenRun t ⟨.inside .double, fs⟩ (escape c) = some ⟨.inside .double, fs⟩ := by
  unfold escape
  split
  · rfl
  split
  · rfl
  split
  · rfl
  split
  · rfl
  split
  · rfl
  split
  · rfl
  split
  · rfl
  · rename_i hback hquote _ _ _ _ _
    rw [hiddenRun_cons, hiddenStep_inside,
      insideStep_of_ne (q := .double) hback hquote (.inr (by decide))]
    rfl

/-- No text inside an f-string ends it. -/
theorem FString.hiddenRun_encode (s : String) :
    hiddenRun t ⟨.inside .double, fs⟩ (encode s).toList = some ⟨.inside .double, fs⟩ := by
  rw [encode, String.toList_ofList]
  exact hiddenRun_flatMap hiddenRun_escape s.toList

theorem Template.hiddenRun_escape (c : Char) :
    hiddenRun t ⟨.inside .backtick, fs⟩ (escape c) = some ⟨.inside .backtick, fs⟩ := by
  unfold escape
  split
  · rfl
  split
  · rfl
  split
  · rfl
  split
  · rfl
  split
  · rfl
  split
  · rfl
  · rename_i hback hquote hdollar _ _ _
    rw [hiddenRun_cons, hiddenStep_inside,
      insideStep_of_ne (q := .backtick) hback hquote (.inl hdollar)]
    rfl

/-- No text inside a template literal ends it or opens a field. -/
theorem Template.hiddenRun_encode (s : String) :
    hiddenRun t ⟨.inside .backtick, fs⟩ (encode s).toList = some ⟨.inside .backtick, fs⟩ := by
  rw [encode, String.toList_ofList]
  exact hiddenRun_flatMap hiddenRun_escape s.toList

end Text

end Polyglot
