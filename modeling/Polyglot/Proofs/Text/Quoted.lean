import Polyglot.Text.Quoted
import Polyglot.Text.SingleQuoted

/-!
# Reading quoted literals

Readers for the two kinds of quoted literals. A reader takes one literal off the front of a text and
gives its value and what follows.

* `Quoted.read_encodeChars`, `SingleQuoted.read_encodeChars` : a written literal is read back to its
  text, and no character behind it is touched.
* `Quoted.encode_injective` : so different texts have different literals.
* `Quoted.not_isControl_of_mem_encode` : a literal with escapes by letter is printable.
* `read_encode_append` : both kinds of literals, whatever they hold and whatever stands behind them.
-/

set_option autoImplicit false

namespace Polyglot.Text

/-! ## Literals with escapes by letter -/

namespace Quoted

/-- The value of a hexadecimal digit in either case. -/
def hexValue? (c : Char) : Option Nat :=
  if '0' ≤ c ∧ c ≤ '9' then some (c.toNat - 48)
  else if 'a' ≤ c ∧ c ≤ 'f' then some (c.toNat - 87)
  else if 'A' ≤ c ∧ c ≤ 'F' then some (c.toNat - 55)
  else none

/-- The character with the given hexadecimal digits. -/
def hexChar? (a b : Char) : Option Char := do
  let high ← hexValue? a
  let low ← hexValue? b
  return Char.ofNat (16 * high + low)

/-- What a backslash and one more character stand for. -/
def unescape? (c : Char) : Option Char :=
  if c = '\\' ∨ c = '\'' ∨ c = '"' then some c
  else if c = 'n' then some '\n'
  else if c = 'r' then some '\r'
  else if c = 't' then some '\t'
  else none

/-- Reads up to the first quote that is not escaped, and that quote. -/
def readBody (quote : Char) : List Char → Option (List Char × List Char)
  | [] => none
  | '\\' :: 'x' :: a :: b :: cs => do
    let c ← hexChar? a b
    let (text, rest) ← readBody quote cs
    return (c :: text, rest)
  | '\\' :: c :: cs => do
    let c ← unescape? c
    let (text, rest) ← readBody quote cs
    return (c :: text, rest)
  | c :: cs =>
    if c = quote then some ([], cs)
    else do
      let (text, rest) ← readBody quote cs
      return (c :: text, rest)

/-- Reads a literal in either quote. -/
def read : List Char → Option (List Char × List Char)
  | [] => none
  | c :: cs => if c = '\'' ∨ c = '"' then readBody c cs else none

theorem hexValue?_digitChar : ∀ d < 16, hexValue? (Nat.digitChar d) = some d := by decide

theorem hexChar?_hex2 {c : Char} (h : c.toNat < 256) :
    hexChar? (Nat.digitChar (c.toNat / 16)) (Nat.digitChar (c.toNat % 16)) = some c := by
  have h1 := hexValue?_digitChar (c.toNat / 16) (by omega)
  have h2 := hexValue?_digitChar (c.toNat % 16) (by omega)
  simp only [hexChar?, h1, h2, Option.bind_eq_bind, Option.bind_some, Option.pure_def]
  rw [show 16 * (c.toNat / 16) + c.toNat % 16 = c.toNat by omega, Char.ofNat_toNat]

theorem toNat_lt_of_isControl {c : Char} (h : isControl c = true) : c.toNat < 256 := by
  simp only [isControl, Bool.or_eq_true, Bool.and_eq_true, decide_eq_true_eq] at h
  omega

/-- One escaped character is read back, whatever comes behind it. -/
theorem readBody_escape {quote : Char} (hq : quote = '"' ∨ quote = '\'') (c : Char)
    (cs : List Char) :
    readBody quote (escape quote c ++ cs) = (readBody quote cs).map fun p => (c :: p.1, p.2) := by
  unfold escape
  split
  · subst_vars
    cases h : readBody quote cs <;> simp [readBody, unescape?, h]
  split
  · subst_vars
    cases h : readBody quote cs <;> simp [readBody, unescape?, h]
  split
  · subst_vars
    cases h : readBody quote cs <;> simp [readBody, unescape?, h]
  split
  · subst_vars
    cases h : readBody quote cs <;> simp [readBody, unescape?, h]
  split
  · rename_i hc
    rcases hq with rfl | rfl
    all_goals
      subst hc
      cases h : readBody _ cs <;> simp [readBody, unescape?, h]
  split
  · rename_i hc
    have hx := hexChar?_hex2 (toNat_lt_of_isControl hc)
    cases h : readBody quote cs <;> simp [readBody, hex2, hx, h]
  · rename_i hback _ _ _ hquote _
    rw [List.singleton_append, readBody.eq_def]
    cases h : readBody quote cs <;> split <;> simp_all

theorem readBody_encode {quote : Char} (hq : quote = '"' ∨ quote = '\'') (cs r : List Char) :
    readBody quote (cs.flatMap (escape quote) ++ quote :: r) = some (cs, r) := by
  induction cs with
  | nil =>
      rcases hq with rfl | rfl
      · simp [readBody]
      · simp [readBody]
  | cons c cs ih =>
      rw [List.flatMap_cons, List.append_assoc, readBody_escape hq, ih]
      rfl

/-- A written literal is read back to its text. -/
theorem read_encodeChars (cs r : List Char) : read (encodeChars cs ++ r) = some (cs, r) := by
  have hm := mark_eq cs
  have hb := readBody_encode hm cs r
  simp only [encodeChars, List.cons_append, List.append_assoc, List.nil_append, read]
  rw [if_pos (hm.symm), hb]

/-- Different texts have different literals. -/
theorem encode_injective {s s' : String} (h : encode s = encode s') : s = s' := by
  have hchars := congrArg String.toList h
  rw [encode, encode, String.toList_ofList, String.toList_ofList] at hchars
  have hread := read_encodeChars s.toList []
  rw [hchars, read_encodeChars] at hread
  exact String.toList_inj.1 (Prod.mk.inj (Option.some.inj hread)).1.symm

theorem not_isControl_digitChar : ∀ d < 16, isControl (Nat.digitChar d) = false := by decide

theorem not_isControl_of_quote {quote : Char} (hq : quote = '"' ∨ quote = '\'') :
    isControl quote = false := by
  rcases hq with rfl | rfl <;> rfl

/-- An escape is made of characters that are seen, and a control character is always escaped. -/
theorem not_isControl_of_mem_escape {quote : Char} (hq : quote = '"' ∨ quote = '\'') {c d : Char}
    (hd : d ∈ escape quote c) : isControl d = false := by
  have hletter : ∀ {e : Char}, isControl e = false → d ∈ ['\\', e] → isControl d = false := by
    intro e he hmem
    rcases List.mem_cons.1 hmem with rfl | hmem
    · rfl
    · rwa [List.mem_singleton.1 hmem]
  unfold escape at hd
  split at hd
  · exact hletter rfl hd
  split at hd
  · exact hletter rfl hd
  split at hd
  · exact hletter rfl hd
  split at hd
  · exact hletter rfl hd
  split at hd
  · rename_i hc
    exact hletter (hc ▸ not_isControl_of_quote hq) hd
  split at hd
  · rename_i hc
    have hlt := toNat_lt_of_isControl hc
    rcases List.mem_cons.1 hd with rfl | hd
    · rfl
    rcases List.mem_cons.1 hd with rfl | hd
    · rfl
    rcases List.mem_cons.1 hd with rfl | hd
    · exact not_isControl_digitChar _ (by omega)
    · rw [List.mem_singleton.1 hd]
      exact not_isControl_digitChar _ (by omega)
  · rename_i hc
    rw [List.mem_singleton.1 hd]
    exact eq_false_of_ne_true hc

/-- A literal holds no newline and no other control character, so it stays on its line. -/
theorem not_isControl_of_mem_encode {s : String} {c : Char} (hc : c ∈ (encode s).toList) :
    isControl c = false := by
  have hm := mark_eq s.toList
  rw [encode, String.toList_ofList, encodeChars, List.mem_cons, List.mem_append] at hc
  rcases hc with rfl | hc | hc
  · exact not_isControl_of_quote hm
  · obtain ⟨d, _, hd⟩ := List.mem_flatMap.1 hc
    exact not_isControl_of_mem_escape hm hd
  · rw [List.mem_singleton.1 hc]
    exact not_isControl_of_quote hm

end Quoted

/-! ## Literals in single quotes -/

namespace SingleQuoted

/-- Reads up to the first single quote that is not escaped, and that quote. A backslash in front of
any other character stands for itself. -/
def readBody : List Char → Option (List Char × List Char)
  | [] => none
  | '\\' :: '\\' :: cs => do
    let (text, rest) ← readBody cs
    return ('\\' :: text, rest)
  | '\\' :: '\'' :: cs => do
    let (text, rest) ← readBody cs
    return ('\'' :: text, rest)
  | c :: cs =>
    if c = '\'' then some ([], cs)
    else do
      let (text, rest) ← readBody cs
      return (c :: text, rest)

/-- Reads a literal in single quotes. -/
def read : List Char → Option (List Char × List Char)
  | [] => none
  | c :: cs => if c = '\'' then readBody cs else none

theorem readBody_escape (c : Char) (cs : List Char) :
    readBody (escape c ++ cs) = (readBody cs).map fun p => (c :: p.1, p.2) := by
  unfold escape
  split
  · subst_vars
    cases h : readBody cs <;> simp [readBody, h]
  split
  · subst_vars
    cases h : readBody cs <;> simp [readBody, h]
  · rw [List.singleton_append, readBody.eq_def]
    cases h : readBody cs <;> split <;> simp_all

theorem readBody_encode (cs r : List Char) :
    readBody (cs.flatMap escape ++ '\'' :: r) = some (cs, r) := by
  induction cs with
  | nil => simp [readBody]
  | cons c cs ih =>
      rw [List.flatMap_cons, List.append_assoc, readBody_escape, ih]
      rfl

/-- A written literal is read back to its text. -/
theorem read_encodeChars (cs r : List Char) : read (encodeChars cs ++ r) = some (cs, r) := by
  have hb := readBody_encode cs r
  simp only [encodeChars, List.cons_append, List.append_assoc, List.nil_append, read, ↓reduceIte]
  rw [hb]

/-- Escaping in two passes comes to the same, if the backslashes are escaped first. -/
theorem flatMap_escape_eq_two_passes (cs : List Char) :
    cs.flatMap escape =
      (cs.flatMap fun c => if c = '\\' then ['\\', '\\'] else [c]).flatMap fun c =>
        if c = '\'' then ['\\', '\''] else [c] := by
  rw [List.flatMap_assoc]
  refine congrArg cs.flatMap (funext fun c => ?_)
  unfold escape
  by_cases hback : c = '\\'
  · rw [if_pos hback, if_pos hback]
    rfl
  · rw [if_neg hback, if_neg hback, List.flatMap_singleton]

end SingleQuoted

/-- **String literals.** A literal is read back to its text and ends where it was written to end,
whatever stands behind it. One with escapes by letter holds no newline, no carriage return and no
other control character. -/
theorem read_encode_append (s t : String) :
    Quoted.read (Quoted.encode s ++ t).toList = some (s.toList, t.toList) ∧
      (∀ c ∈ (Quoted.encode s).toList, isControl c = false) ∧
      SingleQuoted.read (SingleQuoted.encode s ++ t).toList = some (s.toList, t.toList) := by
  refine ⟨?_, fun c hc => Quoted.not_isControl_of_mem_encode hc, ?_⟩
  · rw [String.toList_append, Quoted.encode, String.toList_ofList]
    exact Quoted.read_encodeChars s.toList t.toList
  · rw [String.toList_append, SingleQuoted.encode, String.toList_ofList]
    exact SingleQuoted.read_encodeChars s.toList t.toList

end Polyglot.Text
