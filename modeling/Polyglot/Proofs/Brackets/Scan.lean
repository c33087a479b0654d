import Polyglot.Target

/-!
# Scanning code for brackets

A scan goes through code from left to right, skips string literals, and keeps the brackets that are
open. A field of a template literal is code again, and ends where its own brace is closed.

* `Brackets.step` : one character; none if a bracket closes what is not open.
* `WellBracketed` : a text that leaves nothing open, no string literal either.
* `Brackets.run_append` : a scan can be cut anywhere.
* `Brackets.run_under` : what lies below the open brackets makes no difference.
* `Brackets.step_newline_isCalm`, `Brackets.step_indent` : indentation changes nothing behind a
  newline.
-/

set_option autoImplicit false

namespace Polyglot

namespace Brackets

/-- What is open; a `field` is one of a template literal. -/
inductive Frame where
  | round
  | square
  | curly
  | field
  deriving DecidableEq, Repr

/-- What a string literal stands between. -/
inductive Quote where
  | single
  | double
  | backtick
  deriving DecidableEq, Repr

/-- The character of a quote. -/
def Quote.char : Quote → Char
  | .single => '\''
  | .double => '"'
  | .backtick => '\x60'

/-- Where a scan stands: in code or in a string literal, and there behind a backslash or, in a
template literal, behind a dollar sign. -/
inductive Mode where
  | code
  | inside (quote : Quote)
  | escaped (quote : Quote)
  | dollar
  deriving DecidableEq, Repr

/-- The state of a scan: where it stands and what is open, from the inside out. -/
structure State where
  mode : Mode
  stack : List Frame
  deriving DecidableEq, Repr

/-- The quote that a character opens in code. PHP code has no other literals than those in single
quotes here, and only TypeScript has templates. -/
def quote? (t : Target) (c : Char) : Option Quote :=
  if c = '\'' then some .single
  else if c = '"' ∧ t ≠ .php then some .double
  else if c = '\x60' ∧ t = .typescript then some .backtick
  else none

/-- The frame that a bracket opens. -/
def opened? (c : Char) : Option Frame :=
  if c = '(' then some .round
  else if c = '[' then some .square
  else if c = '\x7b' then some .curly
  else none

/-- The bracket that closes a frame. -/
def Frame.closer : Frame → Char
  | .round => ')'
  | .square => ']'
  | .curly | .field => '\x7d'

/-- Where a scan goes on behind a frame: a field belongs to a template literal. -/
def Frame.outside : Frame → Mode
  | .field => .inside .backtick
  | .round | .square | .curly => .code

/-- A closing bracket: it has to close the innermost frame. -/
def close (c : Char) : List Frame → Option State
  | [] => none
  | f :: stack => if c = f.closer then some ⟨f.outside, stack⟩ else none

/-- One character of code. -/
def codeStep (t : Target) (stack : List Frame) (c : Char) : Option State :=
  match quote? t c with
  | some q => some ⟨.inside q, stack⟩
  | none =>
    match opened? c with
    | some f => some ⟨.code, f :: stack⟩
    | none => if c = ')' ∨ c = ']' ∨ c = '\x7d' then close c stack else some ⟨.code, stack⟩

/-- Where a scan stands behind one character of a string literal. -/
def insideStep (q : Quote) (c : Char) : Mode :=
  if c = '\\' then .escaped q
  else if c = q.char then .code
  else if c = '$' ∧ q = .backtick then .dollar
  else .inside q

/-- One character behind a dollar sign in a template literal. -/
def dollarStep (stack : List Frame) (c : Char) : State :=
  if c = '\x7b' then ⟨.code, .field :: stack⟩ else ⟨insideStep .backtick c, stack⟩

/-- One character. -/
def step (t : Target) : State → Char → Option State
  | ⟨.code, stack⟩, c => codeStep t stack c
  | ⟨.inside q, stack⟩, c => some ⟨insideStep q c, stack⟩
  | ⟨.escaped q, stack⟩, _ => some ⟨.inside q, stack⟩
  | ⟨.dollar, stack⟩, c => some (dollarStep stack c)

/-- The scan of a sequence of characters. -/
def run (t : Target) (s : State) (cs : List Char) : Option State := cs.foldlM (step t) s

/-- Scanned as code behind the open brackets `fs`, the text ends as code behind `gs`. -/
def Shifts (t : Target) (fs gs : List Frame) (text : String) : Prop :=
  run t ⟨.code, fs⟩ text.toList = some ⟨.code, gs⟩

end Brackets

/-- Every bracket of the text is closed by its counterpart, and every string literal ends. -/
def WellBracketed (t : Target) (text : String) : Prop := Brackets.Shifts t [] [] text

instance (t : Target) (text : String) : Decidable (WellBracketed t text) :=
  inferInstanceAs (Decidable (Brackets.run t ⟨.code, []⟩ text.toList = some ⟨.code, []⟩))

namespace Brackets

@[simp] theorem run_nil (t : Target) (s : State) : run t s [] = some s := rfl

theorem run_cons (t : Target) (s : State) (c : Char) (cs : List Char) :
    run t s (c :: cs) = (step t s c).bind fun s' => run t s' cs := rfl

/-- A scan can be cut anywhere. -/
theorem run_append (t : Target) (s : State) (cs ds : List Char) :
    run t s (cs ++ ds) = (run t s cs).bind fun s' => run t s' ds := by
  rw [run, List.foldlM_append]
  rfl

/-! ## Frames below -/

/-- The state with more frames below its own. -/
def State.under (s : State) (below : List Frame) : State := ⟨s.mode, s.stack ++ below⟩

theorem close_under {c : Char} {stack : List Frame} {s : State} (h : close c stack = some s)
    (below : List Frame) : close c (stack ++ below) = some (s.under below) := by
  cases stack with
  | nil => cases h
  | cons f stack =>
      rw [List.cons_append]
      rw [close] at h ⊢
      by_cases hc : c = f.closer
      · rw [if_pos hc] at h ⊢
        cases h
        rfl
      · rw [if_neg hc] at h
        cases h

theorem codeStep_under {t : Target} {stack : List Frame} {c : Char} {s : State}
    (h : codeStep t stack c = some s) (below : List Frame) :
    codeStep t (stack ++ below) c = some (s.under below) := by
  unfold codeStep at h ⊢
  cases hq : quote? t c with
  | some q =>
      rw [hq] at h
      cases h
      rfl
  | none =>
      rw [hq] at h
      cases ho : opened? c with
      | some f =>
          rw [ho] at h
          cases h
          rfl
      | none =>
          rw [ho] at h
          show (if _ then _ else _) = _
          by_cases hc : c = ')' ∨ c = ']' ∨ c = '\x7d'
          · rw [if_pos hc]
            exact close_under (by simpa [hc] using h) below
          · rw [if_neg hc]
            have hs : (⟨.code, stack⟩ : State) = s := by simpa [hc] using h
            rw [← hs]
            rfl

theorem dollarStep_under (stack : List Frame) (c : Char) (below : List Frame) :
    dollarStep (stack ++ below) c = (dollarStep stack c).under below := by
  unfold dollarStep
  by_cases hc : c = '\x7b'
  · rw [if_pos hc, if_pos hc]
    rfl
  · rw [if_neg hc, if_neg hc]
    rfl

theorem step_under {t : Target} {s s' : State} {c : Char} (h : step t s c = some s')
    (below : List Frame) : step t (s.under below) c = some (s'.under below) := by
  obtain ⟨mode, stack⟩ := s
  cases mode with
  | code => exact codeStep_under h below
  | inside q | escaped q =>
      cases h
      rfl
  | dollar =>
      cases h
      show some (dollarStep (stack ++ below) c) = some ((dollarStep stack c).under below)
      rw [dollarStep_under]

/-- What lies below the open brackets makes no difference to a scan that does not fail. -/
theorem run_under {t : Target} {s s' : State} {cs : List Char} (h : run t s cs = some s')
    (below : List Frame) : run t (s.under below) cs = some (s'.under below) := by
  induction cs generalizing s with
  | nil =>
      cases h
      rfl
  | cons c cs ih =>
      rw [run_cons] at h ⊢
      obtain ⟨s₁, hstep, hrun⟩ := Option.bind_eq_some_iff.1 h
      rw [step_under hstep below]
      exact ih hrun

/-! ## Newlines and indentation -/

/-- In a calm state the scan is not in the middle of an escape or of the opening of a field. -/
def State.IsCalm : State → Prop
  | ⟨.code, _⟩ | ⟨.inside _, _⟩ => True
  | ⟨.escaped _, _⟩ | ⟨.dollar, _⟩ => False

/-- The characters that a line can be indented by. -/
def IsIndent (c : Char) : Prop := c = ' ' ∨ c = '\t'

theorem step_newline_isCalm {t : Target} {s s' : State} (h : step t s '\n' = some s') :
    s'.IsCalm := by
  obtain ⟨mode, stack⟩ := s
  cases mode with
  | code =>
      cases h
      trivial
  | inside q =>
      cases q <;> cases h <;> trivial
  | escaped q =>
      cases h
      trivial
  | dollar =>
      cases h
      trivial

theorem step_indent {t : Target} {s : State} {c : Char} (hs : s.IsCalm) (hc : IsIndent c) :
    step t s c = some s := by
  obtain ⟨mode, stack⟩ := s
  cases mode with
  | code => rcases hc with rfl | rfl <;> rfl
  | inside q => rcases hc with rfl | rfl <;> cases q <;> rfl
  | escaped q => exact hs.elim
  | dollar => exact hs.elim

theorem run_indent {t : Target} {s : State} {cs : List Char} (hs : s.IsCalm)
    (hcs : ∀ c ∈ cs, IsIndent c) (ds : List Char) : run t s (cs ++ ds) = run t s ds := by
  induction cs with
  | nil => rfl
  | cons c cs ih =>
      rw [List.cons_append, run_cons, step_indent hs (hcs c (List.mem_cons_self ..))]
      exact ih fun d hd => hcs d (List.mem_cons_of_mem _ hd)

end Brackets

end Polyglot
