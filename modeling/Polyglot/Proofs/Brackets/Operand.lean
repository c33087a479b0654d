import Polyglot.Proofs.Brackets.Text

/-!
# Operands in the text of a type

In the text of a TypeScript type, an array suffix or an ampersand takes hold of what stands in front
of it, as far back as the last space, bar or arrow outside of all brackets and string literals. A
scan for the brackets of types counts angle brackets too, where the end of an arrow is none.

* `TypeText.step`, `TypeText.divides` : the scan, and the characters that operands end at.
* `TypeText.operand?` : what is written last in a text, behind everything that divides it.
* `TypeText.IsUndivided` : all brackets and string literals of the text are closed, and nothing
  divides it.
* `TypeText.Passes` : texts with nothing that divides them, in front of and behind open brackets;
  `Passes.of_isPlain`, `Passes.quoted` are names and string literals.
* `TypeText.operand?_append`, `TypeText.Passes.isUndivided` : such a text is one operand.
-/

set_option autoImplicit false

namespace Polyglot.TypeText

/-! ## The scan -/

/-- A bracket in the text of a type. -/
inductive Bracket where
  | round
  | square
  | curly
  | angle
  deriving DecidableEq, Repr

/-- The bracket that a character opens. -/
def opened? (c : Char) : Option Bracket :=
  if c = '(' then some .round
  else if c = '[' then some .square
  else if c = '\x7b' then some .curly
  else if c = '<' then some .angle
  else none

/-- The bracket that a character closes. -/
def closed? (c : Char) : Option Bracket :=
  if c = ')' then some .round
  else if c = ']' then some .square
  else if c = '\x7d' then some .curly
  else if c = '>' then some .angle
  else none

/-- Where a scan stands. Behind an equals sign, `>` is the end of an arrow. -/
inductive Mode where
  | code
  | equals
  | inside (quote : Char)
  | escaped (quote : Char)
  deriving DecidableEq, Repr

/-- The state of a scan: where it stands and what is open, from the inside out. -/
structure State where
  mode : Mode
  stack : List Bracket
  deriving DecidableEq, Repr

/-- Outside of all brackets and string literals. -/
def start : State := ⟨.code, []⟩

/-- A closing bracket: it has to close the innermost one that is open. -/
def close (b : Bracket) : List Bracket → Option State
  | [] => none
  | b' :: stack => if b = b' then some ⟨.code, stack⟩ else none

/-- One character outside of string literals, unless it ends an arrow. -/
def codeStep (stack : List Bracket) (c : Char) : Option State :=
  if c = '\'' ∨ c = '"' then some ⟨.inside c, stack⟩
  else if c = '=' then some ⟨.equals, stack⟩
  else
    match opened? c with
    | some b => some ⟨.code, b :: stack⟩
    | none =>
      match closed? c with
      | some b => close b stack
      | none => some ⟨.code, stack⟩

/-- Where a scan stands behind one character of a string literal. -/
def insideStep (quote c : Char) : Mode :=
  if c = '\\' then .escaped quote else if c = quote then .code else .inside quote

/-- One character; none if it closes what is not open. -/
def step : State → Char → Option State
  | ⟨.code, stack⟩, c => codeStep stack c
  | ⟨.equals, stack⟩, c => if c = '>' then some ⟨.code, stack⟩ else codeStep stack c
  | ⟨.inside quote, stack⟩, c => some ⟨insideStep quote c, stack⟩
  | ⟨.escaped quote, stack⟩, _ => some ⟨.inside quote, stack⟩

/-- Whether a character divides the text: a space, a bar or the end of an arrow, outside of all
brackets and string literals. -/
def divides (s : State) (c : Char) : Bool :=
  match s.mode with
  | .code => (c == ' ' || c == '|') && s.stack.isEmpty
  | .equals => (c == ' ' || c == '|' || c == '>') && s.stack.isEmpty
  | .inside _ | .escaped _ => false

/-- The scan of a sequence of characters. -/
def run (s : State) (cs : List Char) : Option State := cs.foldlM step s

/-- All brackets and string literals of the text are closed, and nowhere in it stands a character
that divides it. -/
structure IsUndivided (text : String) : Prop where
  closes : run start text.toList = some start
  nowhere : ∀ before c after, text.toList = before ++ c :: after →
    ∃ s, run start before = some s ∧ divides s c = false

/-! ## Operands -/

/-- One character of a scan that keeps what has been read since the text was divided last. -/
def operandStep (s : State × List Char) (c : Char) : Option (State × List Char) :=
  (step s.1 c).map fun s' => (s', if divides s.1 c then [] else s.2 ++ [c])

/-- The scan for what is written last. -/
def operandRun (s : State × List Char) (cs : List Char) : Option (State × List Char) :=
  cs.foldlM operandStep s

/-- What a suffix written behind the text takes hold of, if nothing is left open. -/
def operand? (text : String) : Option String :=
  match operandRun (start, []) text.toList with
  | some (s, last) => if s = start then some (String.ofList last) else none
  | none => none

theorem operandRun_append (s : State × List Char) (cs ds : List Char) :
    operandRun s (cs ++ ds) = (operandRun s cs).bind fun s' => operandRun s' ds := by
  rw [operandRun, List.foldlM_append]
  rfl

/-! ## Texts that nothing divides -/

/-- One character, unless it divides the text. -/
def passStep (s : State) (c : Char) : Option State := if divides s c then none else step s c

/-- The scan that stops at a character that divides the text. -/
def passRun (s : State) (cs : List Char) : Option State := cs.foldlM passStep s

theorem passRun_cons (s : State) (c : Char) (cs : List Char) :
    passRun s (c :: cs) = (passStep s c).bind fun s' => passRun s' cs := rfl

theorem passRun_append (s : State) (cs ds : List Char) :
    passRun s (cs ++ ds) = (passRun s cs).bind fun s' => passRun s' ds := by
  rw [passRun, List.foldlM_append]
  rfl

theorem passStep_eq_some {s s' : State} {c : Char} :
    passStep s c = some s' ↔ divides s c = false ∧ step s c = some s' := by
  rw [passStep]
  cases divides s c <;> simp

/-- Where the scan does not stop, it is the scan for brackets. -/
theorem run_of_passRun {cs : List Char} : ∀ {s s' : State},
    passRun s cs = some s' → run s cs = some s' := by
  induction cs with
  | nil => exact fun h => h
  | cons c cs ih =>
      intro s s' h
      rw [passRun_cons] at h
      obtain ⟨s₁, hpass, hrest⟩ := Option.bind_eq_some_iff.1 h
      show (step s c).bind (fun s₂ => run s₂ cs) = _
      rw [(passStep_eq_some.1 hpass).2]
      exact ih hrest

/-- Where the scan does not stop, all that is read belongs to the operand. -/
theorem operandRun_of_passRun {cs : List Char} : ∀ {s s' : State} {last : List Char},
    passRun s cs = some s' → operandRun (s, last) cs = some (s', last ++ cs) := by
  induction cs with
  | nil =>
      intro s s' last h
      cases h
      rw [List.append_nil]
      rfl
  | cons c cs ih =>
      intro s s' last h
      rw [passRun_cons] at h
      obtain ⟨s₁, hpass, hrest⟩ := Option.bind_eq_some_iff.1 h
      obtain ⟨hdivides, hstep⟩ := passStep_eq_some.1 hpass
      have hfirst : operandStep (s, last) c = some (s₁, last ++ [c]) := by
        simp [operandStep, hstep, hdivides]
      show (operandStep (s, last) c).bind (fun s₂ => operandRun s₂ cs) = _
      rw [hfirst, Option.bind_some, ih hrest, List.append_assoc]
      rfl

/-- Read behind the open brackets `fs`, the text ends behind `gs`, and nothing divides it. -/
def Passes (fs gs : List Bracket) (text : String) : Prop :=
  passRun ⟨.code, fs⟩ text.toList = some ⟨.code, gs⟩

namespace Passes

variable {fs gs hs : List Bracket} {a b : String}

/-- A text whose scan is evaluated. -/
theorem lit (h : passRun ⟨.code, fs⟩ a.toList = some ⟨.code, gs⟩) : Passes fs gs a := h

theorem append (ha : Passes fs gs a) (hb : Passes gs hs b) : Passes fs hs (a ++ b) := by
  rw [Passes] at ha hb ⊢
  rw [String.toList_append, passRun_append, ha]
  exact hb

/-- A text with one behind it whose scan is evaluated. -/
theorem add (ha : Passes fs gs a) (hb : passRun ⟨.code, gs⟩ b.toList = some ⟨.code, hs⟩) :
    Passes fs hs (a ++ b) := ha.append hb

/-- Texts with separators between them. -/
theorem intercalate {sep : String} (hsep : Passes fs fs sep) {ss : List String}
    (h : ∀ s ∈ ss, Passes fs fs s) : Passes fs fs (sep.intercalate ss) :=
  Text.intercalate_of_append (lit rfl) append hsep h

/-- Outside of all brackets, such a text is undivided. -/
theorem isUndivided (h : Passes [] [] a) : IsUndivided a := by
  refine ⟨run_of_passRun h, fun before c after htext => ?_⟩
  rw [Passes, htext, passRun_append] at h
  obtain ⟨s, hbefore, hrest⟩ := Option.bind_eq_some_iff.1 h
  obtain ⟨s', hpass, -⟩ := Option.bind_eq_some_iff.1 hrest
  exact ⟨s, run_of_passRun hbefore, (passStep_eq_some.1 hpass).1⟩

end Passes

/-- A text in which every operand is complete, and that is divided at its end. -/
def EndsDivided (front : String) : Prop :=
  ∀ last, operandRun (start, last) front.toList = some (start, [])

/-- Behind the last division, a text that nothing divides may stand in front of the next one. -/
theorem EndsDivided.append {a b c : String} (ha : EndsDivided a) (hb : Passes [] [] b)
    (hc : EndsDivided c) : EndsDivided (a ++ b ++ c) := by
  intro last
  have hread : operandRun (start, []) b.toList = some (start, [] ++ b.toList) :=
    operandRun_of_passRun hb
  rw [String.toList_append, String.toList_append, operandRun_append, operandRun_append, ha,
    Option.bind_some, hread]
  exact hc _

/-- What is written last is the whole of a text that nothing divides, whatever was read before. -/
theorem operand?_append {front text : String} (hfront : front = "" ∨ EndsDivided front)
    (htext : Passes [] [] text) : operand? (front ++ text) = some text := by
  have hread : operandRun (start, []) front.toList = some (start, []) := by
    rcases hfront with rfl | hfront
    · rfl
    · exact hfront []
  have hlast : operandRun (start, []) text.toList = some (start, [] ++ text.toList) :=
    operandRun_of_passRun htext
  rw [operand?, String.toList_append, operandRun_append, hread, Option.bind_some, hlast]
  simp

/-! ## Names and string literals -/

/-- The characters that divide types, or that brackets, string literals and arrows are made of. -/
def signs : List Char :=
  [' ', '|', '=', '\'', '"', '(', ')', '[', ']', '\x7b', '\x7d', '<', '>']

/-- Whether a text can be the name of a type: it holds no such character. -/
def isPlain (s : String) : Bool := s.toList.all fun c => !signs.contains c

theorem isPlain_of_isIdentifier {s : String} (h : isIdentifier s = true) : isPlain s = true := by
  rw [isPlain, List.all_eq_true]
  exact fun c hc => not_contains_of_all (by decide) (isWordChar_of_mem h c hc)

theorem isPlain_int (n : Int) : isPlain (toString n) = true := by
  rw [isPlain, List.all_eq_true]
  intro c hc
  rcases isDigit_of_mem_int hc with h | rfl
  · exact not_contains_of_all (p := Char.isDigit) (by decide) h
  · decide

theorem passStep_of_not_mem {c : Char} (h : c ∉ signs) (fs : List Bracket) :
    passStep ⟨.code, fs⟩ c = some ⟨.code, fs⟩ := by
  simp only [signs, List.mem_cons, List.not_mem_nil, or_false, not_or] at h
  simp [passStep, divides, step, codeStep, opened?, closed?, h]

namespace Passes

variable {fs : List Bracket}

theorem of_isPlain {s : String} (h : isPlain s = true) : Passes fs fs s := by
  rw [isPlain, List.all_eq_true] at h
  rw [Passes]
  generalize s.toList = cs at h
  induction cs with
  | nil => rfl
  | cons c cs ih =>
      have hc : c ∉ signs := by simpa using h c (List.mem_cons_self ..)
      rw [passRun_cons, passStep_of_not_mem hc]
      exact ih fun d hd => h d (List.mem_cons_of_mem _ hd)

end Passes

theorem passStep_inside (quote : Char) (fs : List Bracket) (c : Char) :
    passStep ⟨.inside quote, fs⟩ c = some ⟨insideStep quote c, fs⟩ := rfl

theorem passRun_hex2 {quote : Char} (hquote : quote = '"' ∨ quote = '\'') (fs : List Bracket)
    {n : Nat} (hn : n < 256) :
    passRun ⟨.inside quote, fs⟩ (Text.Quoted.hex2 n) = some ⟨.inside quote, fs⟩ := by
  have hdigit : ∀ d < 16, insideStep quote (Nat.digitChar d) = .inside quote := by
    rcases hquote with rfl | rfl <;> decide
  have hhigh := hdigit (n / 16) (by omega)
  have hlow := hdigit (n % 16) (by omega)
  rw [Text.Quoted.hex2, passRun_cons, passStep_inside, hhigh, Option.bind_some, passRun_cons,
    passStep_inside, hlow]
  rfl

/-- What stands for a character in a string literal keeps the scan inside. -/
theorem passRun_escape {quote : Char} (hquote : quote = '"' ∨ quote = '\'') (fs : List Bracket)
    (c : Char) :
    passRun ⟨.inside quote, fs⟩ (Text.Quoted.escape quote c) = some ⟨.inside quote, fs⟩ := by
  unfold Text.Quoted.escape
  split
  · rfl
  split
  · rfl
  split
  · rfl
  split
  · rfl
  split
  · rfl
  split
  · rename_i hcontrol
    exact passRun_hex2 hquote fs (Text.Quoted.toNat_lt_of_isControl hcontrol)
  · rename_i hback _ _ _ hne _
    have hinside : insideStep quote c = .inside quote := by
      rw [insideStep, if_neg hback, if_neg hne]
    rw [passRun_cons, passStep_inside, hinside]
    rfl

/-- Nothing divides a string literal, whatever it holds. -/
theorem Passes.quoted (fs : List Bracket) (s : String) : Passes fs fs (Text.Quoted.encode s) := by
  have hmark := Text.Quoted.mark_eq s.toList
  rw [Passes, Text.Quoted.encode, String.toList_ofList, Text.Quoted.encodeChars]
  generalize Text.Quoted.mark s.toList = quote at hmark
  have hbody (cs : List Char) : passRun ⟨.inside quote, fs⟩
      (cs.flatMap (Text.Quoted.escape quote)) = some ⟨.inside quote, fs⟩ := by
    induction cs with
    | nil => rfl
    | cons c cs ih =>
        rw [List.flatMap_cons, passRun_append, passRun_escape hmark]
        exact ih
  have hopen : passStep ⟨.code, fs⟩ quote = some ⟨.inside quote, fs⟩ := by
    rcases hmark with rfl | rfl <;> rfl
  have hclose : passStep ⟨.inside quote, fs⟩ quote = some ⟨.code, fs⟩ := by
    rcases hmark with rfl | rfl <;> rfl
  rw [passRun_cons, hopen, Option.bind_some, passRun_append, hbody, Option.bind_some, passRun_cons,
    hclose]
  rfl

example : operand? "string | () => Map<string, 'a | b'[]>" = some "Map<string, 'a | b'[]>" := by
  decide

end Polyglot.TypeText
