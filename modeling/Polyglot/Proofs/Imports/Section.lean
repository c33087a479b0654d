import Polyglot.Proofs.Imports.Listing
import Polyglot.Proofs.Imports.Requests
import Polyglot.Proofs.Writer.Script

/-!
# Import sections depend on the set of requests

Where in a script an import is asked for, in which order and how often makes no difference to the
file. Its import section lists every requirement once, in strictly ascending order.

* `Script.bare`, `Script.requests` : a script without its import requests, and the requests.
* `Script.write_and_lists_requests` : scripts with the same set of requests, and what the section
  holds.
-/

set_option autoImplicit false

namespace Polyglot.Script

open Outcome

variable {t : Target}

/-- The script without the import requests of its bodies and classes. -/
def bare (s : Script) : Script := { s with body := s.body.bare }

/-- The import requests of all bodies and classes in the script. -/
def requests (s : Script) : Requests := s.body.requests

theorem rest_bare (s : Script) (t : Target) : s.bare.rest t = s.rest t :=
  rest_eq_of_alike (by rfl) s.body.alike_bare t

/-- A script needs its requests, and what it needs without them. -/
theorem adds_requests (s : Script) (t : Target) :
    Import.Adds (s.requests.for t) (s.bare.imports t) (s.imports t) := by
  have h := (s.body.adds_requests t).append (Import.Adds.refl (.ok (s.aliasImports t)))
  rw [List.append_nil] at h
  exact h

/-- Scripts that are the same without their requests, and with the same set of requests, have the
same requirements. -/
theorem adds_of_requests {s s' : Script} (hbare : s.bare = s'.bare)
    (hrequests : ∀ i, i ∈ s.requests.for t ↔ i ∈ s'.requests.for t) :
    Import.Adds [] (s.imports t) (s'.imports t) := by
  have h := s.adds_requests t
  have h' := s'.adds_requests t
  rw [← hbare] at h'
  generalize s.imports t = x at h
  generalize s'.imports t = x' at h'
  generalize s.bare.imports t = y at h h'
  cases h with
  | error e =>
      cases h'
      exact .error e
  | ok hmem =>
      cases h' with
      | ok hmem' => exact .ok fun i => by simp [hmem, hmem', hrequests]

/-- **Import sections.** Scripts that differ in where, in which order and how often imports are
asked for are written the same, as long as the same imports are asked for. What is written has a
section between the head of the file and the rest of it that lists each requirement once, in
strictly ascending order: the requests, and what the script needs without them. -/
theorem write_and_lists_requests (t : Target) (o : Options) (s : Script) :
    (∀ s' : Script, s.bare = s'.bare →
      (∀ i, i ∈ s.requests.for t ↔ i ∈ s'.requests.for t) → s.write t o = s'.write t o) ∧
    ∀ text, s.write t o = .ok text → ∃ is others imports below,
      s.imports t = .ok is ∧ s.bare.imports t = .ok others ∧
      (∀ i, i ∈ is ↔ i ∈ s.requests.for t ∨ i ∈ others) ∧
      IsImportSection is t imports ∧ s.rest t = .ok below ∧
      text = Layout.writeAll o.indent 0 (s.head o t ++ imports ++ below) := by
  refine ⟨fun s' hbare hrequests => ?_, fun text h => ?_⟩
  · have hhead : s.head o t = s'.head o t := by
      have h : s.bare.head o t = s'.bare.head o t := by rw [hbare]
      cases t <;> exact h
    have hrest : s.rest t = s'.rest t := by
      rw [← rest_bare s, hbare, rest_bare s']
    have hlayout := layout_eq_of_adds hhead hrest (adds_of_requests hbare hrequests)
    rw [write_eq, hlayout, write_eq]
  · rw [write_eq] at h
    obtain ⟨lines, hlines, h⟩ := bind_eq_ok.1 h
    cases pure_eq_ok.1 h
    rw [layout_eq_sections] at hlines
    obtain ⟨is, his, hlines⟩ := bind_eq_ok.1 hlines
    obtain ⟨below, hbelow, hlines⟩ := bind_eq_ok.1 hlines
    cases pure_eq_ok.1 hlines
    obtain ⟨others, hothers, hmem⟩ : ∃ others, s.bare.imports t = .ok others ∧
        ∀ i, i ∈ is ↔ i ∈ s.requests.for t ∨ i ∈ others := by
      have h := s.adds_requests t
      rw [his] at h
      generalize s.bare.imports t = x at h
      cases h with
      | ok hmem => exact ⟨_, rfl, hmem⟩
    exact ⟨is, others, _, below, his, hothers, hmem, isImportSection is t, hbelow, rfl⟩

/-- A class and a conditional, each asking for imports, with further requests beside them. -/
def requesting (outer inner own : Requests) : Script where
  body := ⟨outer,
    [.classDef { Class.new "Shape" with imports := own } [],
      .conditional (.literal (.bool true)) ⟨inner, [.plain .blank]⟩ .done]⟩
  comments := []
  aliases := []

theorem requesting_write_eq :
    let log : Target × Import := (.php, .whole "App\\Log")
    let short : Target × Import := (.php, .named "App\\Log" "L")
    let scattered := requesting [short] [log, short] []
    let gathered := requesting [] [] [log, short]
    scattered.write .php .default = gathered.write .php .default ∧
      ∃ text, gathered.write .php .default = .ok text ∧ ∃ is others imports below,
        gathered.imports .php = .ok is ∧ gathered.bare.imports .php = .ok others ∧
        (∀ i, i ∈ is ↔ i ∈ gathered.requests.for .php ∨ i ∈ others) ∧
        IsImportSection is .php imports ∧ gathered.rest .php = .ok below ∧
        text = Layout.writeAll "    " 0 (gathered.head .default .php ++ imports ++ below) := by
  intro log short scattered gathered
  have hrequests : ∀ i, i ∈ scattered.requests.for .php ↔ i ∈ gathered.requests.for .php := by
    intro i
    have h : scattered.requests.for .php =
      [.named "App\\Log" "L", .whole "App\\Log", .named "App\\Log" "L"] := rfl
    have h' : gathered.requests.for .php = [.whole "App\\Log", .named "App\\Log" "L"] := rfl
    simp only [h, h', List.mem_cons]
    tauto
  obtain ⟨text, htext⟩ : ∃ text, gathered.write .php .default = .ok text :=
    ⟨_, (write_eq _ _ _).trans rfl⟩
  exact ⟨(write_and_lists_requests .php .default scattered).1 gathered rfl hrequests, text, htext,
    (write_and_lists_requests .php .default gathered).2 text htext⟩

end Polyglot.Script
