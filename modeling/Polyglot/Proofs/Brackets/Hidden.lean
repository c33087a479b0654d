import Mathlib.Data.List.Basic
import Polyglot.Proofs.Brackets.Scan
import Polyglot.Text.Lines

/-!
# Operators inside of brackets

An operator takes hold of what stands beside the code if it stands outside of all brackets and
string literals. Operators are set off by spaces, or are exclamation marks. A scan that stops at
such a mark goes through exactly the texts that hide all of theirs.

* `Brackets.hiddenRun` : the scan.
* `Brackets.Hides` : a text that is passed; brackets around a text hide whatever is in it.
* `Brackets.Tight` : the same behind words `new`, which TypeScript writes in front of a callee.
* `Brackets.Tight.marks_before` : the only marks outside of brackets are the spaces behind the words
  `new`.
-/

set_option autoImplicit false

namespace Polyglot.Brackets

variable {t : Target} {fs gs hs : List Frame} {a b : String}

/-- The characters that operators are recognised by. -/
def marks : List Char := [' ', '!']

/-- One character, unless it is a mark outside of all brackets and string literals. -/
def hiddenStep (t : Target) (s : State) (c : Char) : Option State :=
  if s = ⟨.code, []⟩ ∧ c ∈ marks then none else step t s c

/-- The scan that stops at a mark outside of all brackets and string literals. -/
def hiddenRun (t : Target) (s : State) (cs : List Char) : Option State :=
  cs.foldlM (hiddenStep t) s

@[simp] theorem hiddenRun_nil (t : Target) (s : State) : hiddenRun t s [] = some s := rfl

theorem hiddenRun_cons (t : Target) (s : State) (c : Char) (cs : List Char) :
    hiddenRun t s (c :: cs) = (hiddenStep t s c).bind fun s' => hiddenRun t s' cs := rfl

theorem hiddenRun_append (t : Target) (s : State) (cs ds : List Char) :
    hiddenRun t s (cs ++ ds) = (hiddenRun t s cs).bind fun s' => hiddenRun t s' ds := by
  rw [hiddenRun, List.foldlM_append]
  rfl

theorem step_of_hiddenStep {s s' : State} {c : Char} (h : hiddenStep t s c = some s') :
    step t s c = some s' := by
  rw [hiddenStep] at h
  by_cases hstop : s = ⟨.code, []⟩ ∧ c ∈ marks
  · rw [if_pos hstop] at h
    cases h
  · rwa [if_neg hstop] at h

/-- Where the scan does not stop, it is the scan for brackets. -/
theorem run_of_hiddenRun {cs : List Char} : ∀ {s s' : State},
    hiddenRun t s cs = some s' → run t s cs = some s' := by
  induction cs with
  | nil => exact fun h => h
  | cons c cs ih =>
      intro s s' h
      rw [hiddenRun_cons] at h
      obtain ⟨s₁, hstep, hrest⟩ := Option.bind_eq_some_iff.1 h
      rw [run_cons, step_of_hiddenStep hstep]
      exact ih hrest

/-- Nothing is outside of all brackets if a bracket is open below. -/
theorem hiddenRun_under {cs : List Char} {s s' : State} (h : run t s cs = some s') (f : Frame)
    (below : List Frame) :
    hiddenRun t (s.under (f :: below)) cs = some (s'.under (f :: below)) := by
  induction cs generalizing s with
  | nil =>
      cases h
      rfl
  | cons c cs ih =>
      rw [run_cons] at h
      obtain ⟨s₁, hstep, hrest⟩ := Option.bind_eq_some_iff.1 h
      have hdeep : ¬(s.under (f :: below) = ⟨.code, []⟩ ∧ c ∈ marks) := by
        rintro ⟨heq, -⟩
        have hstack : s.stack ++ f :: below = [] := congrArg State.stack heq
        exact nomatch (List.append_eq_nil_iff.1 hstack).2
      rw [hiddenRun_cons, hiddenStep, if_neg hdeep, step_under hstep]
      exact ih hrest

/-- The scan stops at a mark that the scan for brackets meets outside of all of them. -/
theorem hiddenRun_eq_none {s : State} {before after : List Char} {mark : Char}
    (h : run t s before = some ⟨.code, []⟩) (hmark : mark ∈ marks) :
    hiddenRun t s (before ++ mark :: after) = none := by
  rw [hiddenRun_append]
  cases hbefore : hiddenRun t s before with
  | none => rfl
  | some s' =>
      have hs' : s' = ⟨.code, []⟩ := by
        have hrun := run_of_hiddenRun hbefore
        rw [h] at hrun
        exact (Option.some.inj hrun).symm
      rw [hs', Option.bind_some, hiddenRun_cons, hiddenStep, if_pos ⟨rfl, hmark⟩]
      rfl

/-! ## Texts that hide their operators -/

/-- Scanned as code behind the open brackets `fs`, the text ends as code behind `gs`, and none of
its marks is outside of all brackets and string literals. -/
def Hides (t : Target) (fs gs : List Frame) (text : String) : Prop :=
  hiddenRun t ⟨.code, fs⟩ text.toList = some ⟨.code, gs⟩

namespace Hides

theorem shifts (h : Hides t fs gs a) : Shifts t fs gs a := run_of_hiddenRun h

/-- A text whose scan is evaluated. -/
theorem lit (h : hiddenRun t ⟨.code, fs⟩ a.toList = some ⟨.code, gs⟩) : Hides t fs gs a := h

theorem append (ha : Hides t fs gs a) (hb : Hides t gs hs b) : Hides t fs hs (a ++ b) := by
  rw [Hides] at ha hb ⊢
  rw [String.toList_append, hiddenRun_append, ha]
  exact hb

/-- A text with one behind it whose scan is evaluated. -/
theorem add (ha : Hides t fs gs a)
    (hb : hiddenRun t ⟨.code, gs⟩ b.toList = some ⟨.code, hs⟩) : Hides t fs hs (a ++ b) :=
  ha.append hb

/-- A well-bracketed text inside of a bracket. -/
theorem inside {f : Frame} (ha : Hides t fs (f :: gs) a) (hb : WellBracketed t b) :
    Hides t fs (f :: gs) (a ++ b) :=
  ha.append (hiddenRun_under hb f gs)

end Hides

/-! ## Texts behind the word for new objects -/

/-- A text that hides its operators, behind any number of words `new` in TypeScript. -/
def Tight (t : Target) (gs : List Frame) (text : String) : Prop :=
  ∃ n rest, text = Text.times n "new " ++ rest ∧ (t = .typescript ∨ n = 0) ∧ Hides t [] gs rest

namespace Tight

theorem of_hides (h : Hides t [] gs a) : Tight t gs a :=
  ⟨0, a, String.empty_append.symm, .inr rfl, h⟩

theorem append (ha : Tight t gs a) (hb : Hides t gs hs b) : Tight t hs (a ++ b) := by
  obtain ⟨n, rest, rfl, hn, hrest⟩ := ha
  exact ⟨n, rest ++ b, String.append_assoc .., hn, hrest.append hb⟩

/-- A text with one behind it whose scan is evaluated. -/
theorem add (ha : Tight t gs a)
    (hb : hiddenRun t ⟨.code, gs⟩ b.toList = some ⟨.code, hs⟩) : Tight t hs (a ++ b) :=
  ha.append hb

/-- A well-bracketed text inside of a bracket. -/
theorem inside {f : Frame} (ha : Tight t (f :: gs) a) (hb : WellBracketed t b) :
    Tight t (f :: gs) (a ++ b) :=
  ha.append (hiddenRun_under hb f gs)

theorem new (ha : Tight .typescript gs a) : Tight .typescript gs ("new " ++ a) := by
  obtain ⟨n, rest, rfl, -, hrest⟩ := ha
  refine ⟨n + 1, rest, ?_, .inl rfl, hrest⟩
  rw [Text.times_succ, String.append_assoc]

/-- A mark outside of all brackets and string literals is a space, and ends a run of words `new` at
the beginning of the text. -/
theorem marks_before (ha : Tight t gs a) {before after : List Char} {mark : Char}
    (hmark : mark ∈ marks) (htext : a.toList = before ++ mark :: after)
    (htop : run t ⟨.code, []⟩ before = some ⟨.code, []⟩) :
    t = .typescript ∧ ∃ n, before ++ [mark] = (Text.times n "new ").toList := by
  obtain ⟨n, rest, rfl, hn, hrest⟩ := ha
  induction n generalizing before with
  | zero =>
      rw [Text.times_zero, String.empty_append] at htext
      rw [Hides, htext, hiddenRun_eq_none htop hmark] at hrest
      cases hrest
  | succ n ih =>
      have ht : t = .typescript := hn.resolve_right (Nat.succ_ne_zero n)
      -- The first word of the text is `before` and its mark, or stands in front of the rest of it.
      rw [Text.times_succ, String.append_assoc, String.toList_append] at htext
      refine ⟨ht, ?_⟩
      rcases before with _ | ⟨c₁, _ | ⟨c₂, _ | ⟨c₃, _ | ⟨c₄, before⟩⟩⟩⟩
      · cases htext
        exact absurd hmark (by decide)
      · cases htext
        exact absurd hmark (by decide)
      · cases htext
        exact absurd hmark (by decide)
      · cases htext
        exact ⟨1, rfl⟩
      · obtain ⟨rfl, rfl, rfl, rfl, hbehind⟩ :
            'n' = c₁ ∧ 'e' = c₂ ∧ 'w' = c₃ ∧ ' ' = c₄ ∧
              (Text.times n "new " ++ rest).toList = before ++ mark :: after := by
          simpa using htext
        have hbelow : run t ⟨.code, []⟩ before = some ⟨.code, []⟩ := htop
        obtain ⟨-, m, hm⟩ := ih hbelow hbehind (.inl ht)
        refine ⟨m + 1, ?_⟩
        rw [Text.times_succ, String.toList_append, ← hm]
        rfl

end Tight

end Polyglot.Brackets
