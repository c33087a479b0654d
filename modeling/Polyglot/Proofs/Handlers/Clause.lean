import Mathlib.Data.List.GetD
import Polyglot.Proofs.Handlers.Dispatch

/-!
# What a `catch` clause does

In TypeScript the handlers of a `try` become the statements of one `catch` clause: a conditional
that tests the classes in order, and a `throw` behind it. The clause is given as a program, which is
what the writer writes, and which is run on values of any classes.

* `CatchStmt.printAll`, `CatchStmt.run` : the text of such a program, and what it does.
* `CatchClause.toTypeScript_eq` : the written clause is the text of `Handlers.catchCode`.
* `CatchStmt.run_ofTested` : the first handler that takes the value is run, and where no handler
  catches everything, the value is thrown again behind a handler that completes normally.
* `Stmt.catch_events` : **the clause of every accepted `try`.**
* `Handlers.isFaithful_iff` : which clauses throw a value again only if no handler takes it.
-/

set_option autoImplicit false

namespace Polyglot

open Outcome

/-! ## Programs in a clause -/

/-- An `if` statement from one of its tests on. The handlers are meant by their places. -/
inductive Branching where
  | done
  | otherwise (place : Nat)
  | test (name : String) (place : Nat) (rest : Branching)

/-- A statement of a clause: those of a handler, a conditional, or a `throw` of the variable. -/
inductive CatchStmt where
  | handler (place : Nat)
  | conditional (tests : Branching)
  | rethrow

/-- What happens in a clause. -/
inductive CatchEvent where
  | handled (place : Nat)
  | thrownAgain
  deriving DecidableEq, Repr

/-! ### Text -/

/-- The lines of a conditional, behind what stands in front of its first test. -/
def Branching.print (var : String) (bodies : List (List Layout)) (keyword : String) :
    Branching → List Layout
  | .done => [.line "\x7d"]
  | .otherwise place => [.line "\x7d else \x7b", .nest (bodies.getD place []), .line "\x7d"]
  | .test name place rest =>
    .line (keyword ++ "if (" ++ var ++ " instanceof " ++ name ++ ") \x7b") ::
      .nest (bodies.getD place []) :: rest.print var bodies "\x7d else "

/-- The lines of a statement. -/
def CatchStmt.print (var : String) (bodies : List (List Layout)) : CatchStmt → List Layout
  | .handler place => bodies.getD place []
  | .conditional tests => tests.print var bodies ""
  | .rethrow => [.line ("throw " ++ var ++ ";")]

def CatchStmt.printAll (var : String) (bodies : List (List Layout)) (ss : List CatchStmt) :
    List Layout :=
  ss.flatMap (print var bodies)

/-- The line that opens a clause. -/
def catchLine : Option String → String
  | none => "\x7d catch \x7b"
  | some var => "\x7d catch (" ++ var ++ ") \x7b"

/-! ### Runs -/

section Runs

variable (isInstance : String → Bool) (completes : Nat → Bool)

/-- What a conditional does with a value of certain classes, and whether it completes normally, if
it is known which handlers do. -/
def Branching.run : Branching → List CatchEvent × Bool
  | .done => ([], true)
  | .otherwise place => ([.handled place], completes place)
  | .test name place rest =>
    if isInstance name then ([.handled place], completes place) else rest.run

/-- What a statement does, and whether it completes normally. -/
def CatchStmt.step : CatchStmt → List CatchEvent × Bool
  | .handler place => ([.handled place], completes place)
  | .conditional tests => tests.run isInstance completes
  | .rethrow => ([.thrownAgain], false)

/-- What statements do one after the other: the first one that does not complete normally is the
last one that is run. -/
def CatchStmt.run : List CatchStmt → List CatchEvent × Bool
  | [] => ([], true)
  | s :: ss =>
    match s.step isInstance completes with
    | (events, true) => (events ++ (run ss).1, (run ss).2)
    | (events, false) => (events, false)

/-- Whether a handler takes a value of certain classes. -/
def Catch.takes (arm : Catch) : Bool := arm.tested.all isInstance

end Runs

/-! ## The program for handlers -/

/-- The tests for handlers that catch the given classes. -/
def Branching.ofTested (place : Nat) : List (Option String) → Branching
  | [] => .done
  | none :: _ => .otherwise place
  | some name :: rest => .test name place (ofTested (place + 1) rest)

/-- The statements for handlers that catch the given classes. -/
def CatchStmt.ofTested : List (Option String) → List CatchStmt
  | none :: _ => [.handler 0]
  | tested => .conditional (.ofTested 0 tested) :: if none ∈ tested then [] else [.rethrow]

namespace Handlers

/-- The variable that the first handler with a variable binds. -/
def catchVar (hs : Handlers) : Option String := hs.catches.findSome? Catch.var

/-- The statements of the clause for the handlers. -/
def catchCode (hs : Handlers) : List CatchStmt := CatchStmt.ofTested (hs.catches.map Catch.tested)

/-- What the clause does. -/
def events (isInstance : String → Bool) (completes : Nat → Bool) (hs : Handlers) :
    List CatchEvent :=
  (CatchStmt.run isInstance completes hs.catchCode).1

/-- What the handlers ask for: the first one that takes the value is run, and nothing else happens
unless there is none. -/
def asked (isInstance : String → Bool) (hs : Handlers) : List CatchEvent :=
  match hs.catches.findIdx? (·.takes isInstance) with
  | some place => [.handled place]
  | none => [.thrownAgain]

end Handlers

/-! ### The written clause is its text -/

/-- The tests and what follows them, from any test on: the places of the handlers are counted on
through the whole clause. -/
theorem CatchClause.tests_eq (var : String) {bodies : List (List Layout)} (catchesAll : Bool) :
    ∀ (names : List String) (place : Nat) (keyword : String),
      bodies.length = place + (Dispatch.tested ⟨none, names, catchesAll⟩).length →
      tests var keyword names (bodies.drop place) =
        (Branching.ofTested place (Dispatch.tested ⟨none, names, catchesAll⟩)).print var bodies
          keyword ++ if catchesAll then [] else [.line ("throw " ++ var ++ ";")]
  | [], place, keyword, hlength => by
      cases catchesAll with
      | false =>
          have hnil : bodies.drop place = [] := List.drop_eq_nil_of_le (Nat.le_of_eq hlength)
          rw [hnil]
          rfl
      | true =>
          have hlt : place < bodies.length := by rw [hlength]; exact Nat.lt_succ_self place
          have hbody : bodies.getD place [] = bodies[place] := List.getD_eq_getElem _ _ hlt
          rw [List.drop_eq_getElem_cons hlt, ← hbody]
          rfl
  | name :: names, place, keyword, hlength => by
      rw [Dispatch.tested_cons, List.length_cons] at hlength
      have hlt : place < bodies.length := by omega
      have hbody : bodies.getD place [] = bodies[place] := List.getD_eq_getElem _ _ hlt
      have hrest : bodies.length =
          place + 1 + (Dispatch.tested ⟨none, names, catchesAll⟩).length := by omega
      have ih := tests_eq var catchesAll names (place + 1) "\x7d else " hrest
      rw [List.drop_eq_getElem_cons hlt, tests, ih, ← hbody]
      rfl

/-- The clause of accepted handlers is written as the text of their program. -/
theorem CatchClause.toTypeScript_eq {d : Dispatch} {clause : CatchClause}
    (hclause : d.clause = .ok clause) {bodies : List (List Layout)} (hsome : bodies ≠ [])
    (hlength : bodies.length = d.tested.length) :
    clause.toTypeScript bodies =
      [.line (catchLine d.var),
        .nest (CatchStmt.printAll (d.var.getD "") bodies (CatchStmt.ofTested d.tested))] := by
  obtain ⟨var, classes, catchesAll⟩ := d
  cases classes with
  | nil =>
      cases catchesAll with
      | false => exact absurd (List.eq_nil_of_length_eq_zero hlength) hsome
      | true =>
          cases hclause
          obtain ⟨body, rfl⟩ := List.length_eq_one_iff.1 hlength
          cases var <;> rfl
  | cons name names =>
      cases var with
      | none => cases hclause
      | some var =>
          cases hclause
          rw [← Nat.zero_add (Dispatch.tested _).length] at hlength
          have htests := tests_eq var catchesAll (name :: names) 0 "" hlength
          rw [List.drop_zero] at htests
          rw [toTypeScript, htests]
          -- Without a handler that catches everything, the `throw` stands behind the tests.
          cases catchesAll <;>
            simp [catchLine, CatchStmt.ofTested, CatchStmt.printAll, CatchStmt.print,
              Dispatch.tested]

/-! ## Runs of the program -/

section Runs

variable (isInstance : String → Bool) (completes : Nat → Bool)

/-- The tests lead to the first class that the value is an instance of. -/
theorem Branching.run_ofTested (tested : List (Option String)) (place : Nat) :
    (ofTested place tested).run isInstance completes =
      match tested.findIdx? (·.all isInstance) with
      | some k => ([.handled (place + k)], completes (place + k))
      | none => ([], true) := by
  induction tested generalizing place with
  | nil => rfl
  | cons first rest ih =>
      rw [List.findIdx?_cons]
      cases first with
      | none => rfl
      | some name =>
          rw [ofTested, run, Option.all_some]
          cases isInstance name with
          | true => rfl
          | false =>
              rw [if_neg Bool.false_ne_true, if_neg Bool.false_ne_true, ih (place + 1)]
              cases rest.findIdx? (·.all isInstance) with
              | none => rfl
              | some k => simp [Nat.add_assoc, Nat.add_comm 1 k]

namespace CatchStmt

/-- What follows a statement is run if the statement completes normally. -/
theorem run_cons (s : CatchStmt) (ss : List CatchStmt) :
    (run isInstance completes (s :: ss)).1 =
      (s.step isInstance completes).1 ++
        if (s.step isInstance completes).2 then (run isInstance completes ss).1 else [] := by
  rw [run]
  split
  · next h => rw [h, if_pos rfl]
  · next h => rw [h, if_neg Bool.false_ne_true, List.append_nil]

theorem step_tests (tested : List (Option String)) :
    (conditional (.ofTested 0 tested)).step isInstance completes =
      match tested.findIdx? (·.all isInstance) with
      | some place => ([.handled place], completes place)
      | none => ([], true) := by
  have h := Branching.run_ofTested isInstance completes tested 0
  simp only [Nat.zero_add] at h
  exact h

/-- What the program does with a value: the `throw` behind the tests is reached by a handler that
completes normally, too. -/
theorem run_ofTested (tested : List (Option String)) :
    (run isInstance completes (ofTested tested)).1 =
      match tested.findIdx? (·.all isInstance) with
      | some place =>
        if completes place ∧ none ∉ tested then [.handled place, .thrownAgain]
        else [.handled place]
      | none => [.thrownAgain] := by
  cases tested with
  | nil => rfl
  | cons first rest =>
      cases first with
      | none =>
          -- The handler is all of the clause.
          have hcode : ofTested (none :: rest) = [.handler 0] := rfl
          rw [hcode, run_cons, List.findIdx?_cons]
          cases hcompletes : completes 0 <;> simp [hcompletes, run, step]
      | some name =>
          have hcode : ofTested (some name :: rest) =
              conditional (.ofTested 0 (some name :: rest)) ::
                if none ∈ some name :: rest then [] else [.rethrow] := rfl
          rw [hcode, run_cons, step_tests]
          cases hfind : (some name :: rest).findIdx? (·.all isInstance) with
          | none =>
              -- A value that no handler takes shows that none catches everything.
              have hnone : none ∉ some name :: rest := fun h =>
                absurd (List.findIdx?_eq_none_iff.1 hfind none h) nofun
              rw [if_neg hnone]
              rfl
          | some place =>
              by_cases hnone : none ∈ some name :: rest
              · rw [if_pos hnone]
                simp [hnone, run]
              · rw [if_neg hnone]
                cases hcompletes : completes place with
                | false => simp [hcompletes]
                | true => simp [hcompletes, hnone, run, step]

end CatchStmt

end Runs

/-! ## Handlers of a `try` -/

/-- What the clause of a `try` does: a value that no handler takes is thrown again, and so is a
value whose handler completes normally, unless some handler catches everything. -/
theorem Handlers.events_eq (isInstance : String → Bool) (completes : Nat → Bool) (hs : Handlers) :
    hs.events isInstance completes =
      match hs.catches.findIdx? (·.takes isInstance) with
      | some place =>
        if completes place ∧ ∀ arm ∈ hs.catches, arm.tested ≠ none then
          [.handled place, .thrownAgain]
        else [.handled place]
      | none => [.thrownAgain] := by
  have hall : none ∉ hs.catches.map Catch.tested ↔ ∀ arm ∈ hs.catches, arm.tested ≠ none := by
    simp
  rw [events, catchCode, CatchStmt.run_ofTested, List.findIdx?_map]
  simp only [hall]
  rfl

/-- A clause throws values again exactly as its handlers ask for if and only if some handler catches
everything. -/
theorem Handlers.isFaithful_iff {hs : Handlers} (hcatches : hs.catches ≠ []) :
    (∀ isInstance completes, hs.events isInstance completes = hs.asked isInstance) ↔
      ∃ arm ∈ hs.catches, arm.tested = none := by
  constructor
  · intro hfaithful
    by_contra hnone
    have hall : ∀ arm ∈ hs.catches, arm.tested ≠ none := fun arm harm h => hnone ⟨arm, harm, h⟩
    obtain ⟨arm, arms, hcons⟩ := List.exists_cons_of_ne_nil hcatches
    -- The first handler takes a value of all classes.
    have htakes : arm.takes (fun _ => true) = true := by
      rw [Catch.takes]
      cases arm.tested <;> rfl
    have hfirst : hs.catches.findIdx? (·.takes fun _ => true) = some 0 := by
      rw [hcons, List.findIdx?_cons, if_pos htakes]
    have hevents : hs.events (fun _ => true) (fun _ => true) = [.handled 0, .thrownAgain] := by
      rw [events_eq, hfirst]
      exact if_pos ⟨rfl, hall⟩
    have hasked : hs.asked (fun _ => true) = [.handled 0] := by rw [asked, hfirst]
    have h := hfaithful (fun _ => true) (fun _ => true)
    rw [hevents, hasked] at h
    cases h
  · rintro ⟨arm, harm, hnone⟩ isInstance completes
    have hnot : ¬∀ a ∈ hs.catches, a.tested ≠ none := fun hall => hall arm harm hnone
    rw [events_eq, asked]
    simp only [hnot, and_false, if_false]

/-- **The `catch` clause of a `try`** that is accepted: its text, and what it does with a value of
any classes, whichever of the handlers complete normally. -/
theorem Stmt.catch_events {body : Body} {handlers : Handlers} {lines : List Layout}
    (h : (Stmt.attempt body handlers).toTypeScript = .ok lines) (hcatches : handlers.catches ≠ []) :
    (∃ inner bodies after, body.toTypeScript = .ok inner ∧
      handlers.toTypeScript = .ok (bodies, after) ∧
      lines = .line "try \x7b" :: .nest inner :: .line (catchLine handlers.catchVar) ::
        .nest (CatchStmt.printAll (handlers.catchVar.getD "") bodies handlers.catchCode) ::
          (after ++ [.line "\x7d"])) ∧
    ∀ isInstance completes, handlers.events isInstance completes =
      match handlers.catches.findIdx? (·.takes isInstance) with
      | some place =>
        if completes place ∧ ∀ arm ∈ handlers.catches, arm.tested ≠ none then
          [.handled place, .thrownAgain]
        else [.handled place]
      | none => [.thrownAgain] := by
  obtain ⟨_, _, h⟩ := bind_eq_ok.1 h
  obtain ⟨d, hd, h⟩ := bind_eq_ok.1 h
  obtain ⟨inner, hinner, h⟩ := bind_eq_ok.1 h
  obtain ⟨clause, hclause, h⟩ := bind_eq_ok.1 h
  obtain ⟨⟨bodies, after⟩, hothers, h⟩ := bind_eq_ok.1 h
  cases pure_eq_ok.1 h
  obtain ⟨hvar, htested⟩ := Dispatch.of_ofCatches hd
  have hlength := Handlers.length_toTypeScript hothers
  have hsome : bodies ≠ [] := by
    rintro rfl
    exact hcatches (List.eq_nil_of_length_eq_zero hlength.symm)
  have hplaces : bodies.length = d.tested.length := by rw [hlength, htested, List.length_map]
  refine ⟨⟨inner, bodies, after, hinner, hothers, ?_⟩, fun isInstance completes =>
    handlers.events_eq isInstance completes⟩
  rw [CatchClause.toTypeScript_eq hclause hsome hplaces, hvar, htested]
  rfl

/-- Of two handlers that return, the second one takes a range error, which goes no further. -/
theorem Handlers.events_of_range_error :
    let handlers : Handlers :=
      .handler ⟨some "e", ⟨none, some "TypeError", none⟩⟩ ⟨[], [.plain (.ret (.var "early" none))]⟩
        (.handler ⟨none, ⟨none, some "RangeError", none⟩⟩ ⟨[], [.plain (.ret (.var "late" none))]⟩
          .done)
    (∃ lines, (Stmt.attempt .empty handlers).toTypeScript = .ok lines) ∧ handlers.catches ≠ [] ∧
      handlers.events (· == "RangeError") (fun _ => false) = [.handled 1] := by
  intro handlers
  have haccepted : ∃ lines, (Stmt.attempt .empty handlers).toTypeScript = .ok lines := ⟨_, rfl⟩
  have hcatches : handlers.catches ≠ [] := List.cons_ne_nil _ _
  refine ⟨haccepted, hcatches, ?_⟩
  obtain ⟨lines, hlines⟩ := haccepted
  rw [(Stmt.catch_events hlines hcatches).2]
  rfl

/-- A type error that is logged is thrown again, although there is a handler for it. -/
theorem Handlers.logged_error_thrown_again :
    let handlers : Handlers :=
      .handler ⟨some "e", ⟨some "TypeError", some "TypeError", some "TypeError"⟩⟩
        ⟨[], [.plain (.expr (.call "log" false [.var "e" none] []))]⟩ .done
    (Stmt.attempt ⟨[], [.plain (.expr (.call "work" false [] []))]⟩ handlers).toTypeScript =
        .ok [.line "try \x7b", .nest [.line "work();"], .line "\x7d catch (e) \x7b",
          .nest [.line "if (e instanceof TypeError) \x7b", .nest [.line "log(e);"], .line "\x7d",
            .line "throw e;"], .line "\x7d"] ∧
      handlers.events (· == "TypeError") (fun _ => true) = [.handled 0, .thrownAgain] ∧
      handlers.asked (· == "TypeError") = [.handled 0] :=
  ⟨rfl, rfl, rfl⟩

end Polyglot
