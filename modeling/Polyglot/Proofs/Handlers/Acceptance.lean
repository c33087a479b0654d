import Mathlib.Data.List.Pairwise
import Polyglot.Proofs.Handlers.Clause
import Polyglot.Proofs.Stmt.Parts

/-!
# Which handlers one clause can stand for

Handlers are taken in one after the other, and the variable for the tests is asked for at the end.
What comes of it can be said of all handlers together.

* `Catch.Precedes` : one handler may stand anywhere in front of another one.
* `Dispatch.succeeds_foldlM` : handlers are taken in if each may stand in front of all behind it.
* `Handlers.IsAcceptable` : what a single untyped `catch` asks of the arms of a `try`.
* `Handlers.typedArms`, `Handlers.catchAll?` : the handlers for classes, and the one for the rest.
* `CatchStmt.ofArms` : a clause that tests given classes and has a given last handler.
* `Stmt.attempt_accepted_iff` : **which `try` statements are written, and how.**
-/

set_option autoImplicit false

namespace Polyglot

open Outcome

/-! ## Refusals -/

/-- The error is that a program makes no sense. -/
def IsFault (e : Error) : Prop := ∃ fault, e = .invalid fault

/-! ## Lists of handlers -/

/-- Two handlers bind the same variable, unless one of them binds none. -/
def Catch.Agrees (a b : Catch) : Prop := ∀ x ∈ a.var, ∀ y ∈ b.var, x = y

/-- A handler may stand in front of another one if it does not catch everything, and if the two do
not bind different variables. -/
def Catch.Precedes (a b : Catch) : Prop := a.tested ≠ none ∧ a.Agrees b

instance : Std.Symm Catch.Agrees := ⟨fun _ _ h x hx y hy => (h y hy x hx).symm⟩

theorem Catch.Agrees.refl (a : Catch) : a.Agrees a := fun _ hx _ hy => Option.mem_unique hx hy

/-- What is asked of all members with another one behind them is asked of all but the last. -/
theorem pairwise_left_iff {α : Type} {p : α → Prop} (as : List α) :
    as.Pairwise (fun a _ => p a) ↔ ∀ a ∈ as.dropLast, p a := by
  induction as with
  | nil => simp
  | cons a as ih =>
      rw [List.pairwise_cons, ih]
      cases as with
      | nil => simp
      | cons b bs =>
          have hp : (∀ c ∈ b :: bs, p a) ↔ p a :=
            ⟨fun h => h b (List.mem_cons_self ..), fun h _ _ => h⟩
          rw [List.dropLast_cons_cons, hp, List.forall_mem_cons]

/-- Handlers may stand in their order if any two agree and only the last one catches everything. -/
theorem pairwise_precedes_iff (arms : List Catch) :
    arms.Pairwise Catch.Precedes ↔
      (∀ a ∈ arms, ∀ b ∈ arms, a.Agrees b) ∧ ∀ a ∈ arms.dropLast, a.tested ≠ none := by
  have hsplit : arms.Pairwise Catch.Precedes ↔
      arms.Pairwise (fun a _ => a.tested ≠ none) ∧ arms.Pairwise Catch.Agrees :=
    List.pairwise_and_iff
  rw [hsplit, pairwise_left_iff, and_comm]
  refine and_congr_left fun _ => ⟨fun h a ha b hb => ?_, fun h => ?_⟩
  · exact h.forall_of_forall (fun a _ => Catch.Agrees.refl a) ha hb
  · exact List.pairwise_of_forall_mem_list fun a ha b hb => h a ha b hb

namespace Dispatch

/-- What was taken in so far lets a handler follow. -/
def Admits (d : Dispatch) (arm : Catch) : Prop :=
  d.catchesAll = false ∧ ∀ x ∈ d.var, ∀ y ∈ arm.var, x = y

/-- A handler that was taken in lets those follow that it precedes. -/
theorem admits_of_add {d d' : Dispatch} {arm next : Catch} (h : d.add arm = .ok d')
    (hnext : d.Admits next) : d'.Admits next ↔ arm.Precedes next := by
  obtain ⟨hvar, hall, rfl⟩ := add_eq_ok.1 h
  unfold Admits Catch.Precedes
  have htested : arm.tested.isNone = false ↔ arm.tested ≠ none := by
    cases arm.tested <;> simp
  rw [htested]
  refine and_congr_right fun _ => ?_
  cases hd : d.var with
  | none =>
      rw [Option.none_or]
      exact Iff.rfl
  | some x =>
      rw [Option.some_or]
      -- The variable so far is also that of the handler, if it binds one.
      constructor
      · intro h' y hy z hz
        rw [← hvar x hd y hy]
        exact h' x rfl z hz
      · intro _ y hy z hz
        cases hy
        exact hnext.2 x hd z hz

/-- **Handlers are taken in** if what was taken in before lets each of them follow, and each of them
lets follow those behind it. -/
theorem succeeds_foldlM {d : Dispatch} {arms : List Catch} :
    Succeeds (arms.foldlM add d) ↔ (∀ arm ∈ arms, d.Admits arm) ∧ arms.Pairwise Catch.Precedes := by
  induction arms generalizing d with
  | nil => simp [Succeeds, pure_eq_ok]
  | cons arm arms ih =>
      rw [List.foldlM_cons, List.forall_mem_cons, List.pairwise_cons]
      constructor
      · rintro ⟨d', h⟩
        obtain ⟨d₁, hadd, h⟩ := bind_eq_ok.1 h
        obtain ⟨hadmits, hpairs⟩ := ih.1 ⟨d', h⟩
        obtain ⟨hvar, hall, rfl⟩ := add_eq_ok.1 hadd
        have hrest : ∀ next ∈ arms, d.Admits next := by
          intro next hnext
          refine ⟨hall, fun x hx y hy => ?_⟩
          refine (hadmits next hnext).2 x ?_ y hy
          rw [Option.mem_def.1 hx]
          rfl
        refine ⟨⟨⟨hall, hvar⟩, hrest⟩, fun next hnext => ?_, hpairs⟩
        exact (admits_of_add hadd (hrest next hnext)).1 (hadmits next hnext)
      · rintro ⟨⟨harm, hrest⟩, hprecedes, hpairs⟩
        have hadd := add_eq_ok.2 ⟨harm.2, harm.1, rfl⟩
        have hadmits := fun next hnext =>
          (admits_of_add hadd (hrest next hnext)).2 (hprecedes next hnext)
        obtain ⟨d', hd'⟩ := ih.2 ⟨hadmits, hpairs⟩
        exact ⟨d', bind_eq_ok.2 ⟨_, hadd, hd'⟩⟩

/-- Handlers are refused as a program that makes no sense. -/
theorem failsWith_add (d : Dispatch) (arm : Catch) : FailsWith IsFault (d.add arm) := by
  intro e h
  unfold add at h
  -- Each way through the checks ends at a fault or without an error.
  repeat' split at h
  all_goals cases h
  all_goals exact ⟨_, rfl⟩

theorem failsWith_foldlM (d : Dispatch) (arms : List Catch) :
    FailsWith IsFault (arms.foldlM add d) := by
  induction arms generalizing d with
  | nil => exact .ok d
  | cons arm arms ih => exact .bind (failsWith_add d arm) fun d' _ => ih d'

theorem failsWith_clause (d : Dispatch) : FailsWith IsFault d.clause := by
  unfold clause
  split
  · exact .ok _
  · split
    · exact .error ⟨_, rfl⟩
    · exact .ok _

/-- There is a clause if there is nothing to test or a variable to test. -/
theorem succeeds_clause_iff {d : Dispatch} :
    Succeeds d.clause ↔ (d.classes ≠ [] → d.var ≠ none) := by
  unfold clause
  cases hclasses : d.classes with
  | nil => simp
  | cons name names =>
      cases hvar : d.var <;> simp

/-- There is something to test if some handler is for a class. -/
theorem classes_ne_nil_iff {d : Dispatch} {arms : List Catch}
    (h : d.tested = arms.map Catch.tested) : d.classes ≠ [] ↔ ∃ a ∈ arms, a.tested ≠ none := by
  have hmem : (∃ name, some name ∈ d.tested) ↔ d.classes ≠ [] := by
    unfold tested
    cases d.classes <;> simp
  rw [← hmem, h]
  simp only [List.mem_map]
  constructor
  · rintro ⟨name, a, ha, hname⟩
    exact ⟨a, ha, hname ▸ Option.some_ne_none name⟩
  · rintro ⟨a, ha, hname⟩
    obtain ⟨name, hname⟩ := Option.ne_none_iff_exists'.1 hname
    exact ⟨name, a, ha, hname⟩

end Dispatch

/-! ## Statements that are accepted -/

namespace Handlers

/-- What a single untyped `catch` asks of the arms of a `try`: there is an arm, all handlers that
bind a variable bind the same one, every handler but the last one is for a class, and some handler
binds a variable if some handler is for a class. -/
structure IsAcceptable (hs : Handlers) : Prop where
  hasArm : hs.catches ≠ [] ∨ hs.hasCleanup = true
  agree : ∀ a ∈ hs.catches, ∀ b ∈ hs.catches, a.Agrees b
  tested : ∀ a ∈ hs.catches.dropLast, a.tested ≠ none
  bound : (∃ a ∈ hs.catches, a.tested ≠ none) → ∃ a ∈ hs.catches, a.var ≠ none

theorem succeeds_check_iff (hs : Handlers) :
    Succeeds hs.check ↔ hs.catches ≠ [] ∨ hs.hasCleanup = true := by
  cases hs <;> simp [check, catches, hasCleanup]

theorem failsWith_check (hs : Handlers) : FailsWith IsFault hs.check := by
  unfold check
  split
  · exact .error ⟨_, rfl⟩
  · exact .ok _

theorem succeeds_ofCatches_iff (hs : Handlers) :
    Succeeds (Dispatch.ofCatches hs.catches) ↔
      (∀ a ∈ hs.catches, ∀ b ∈ hs.catches, a.Agrees b) ∧
        ∀ a ∈ hs.catches.dropLast, a.tested ≠ none := by
  rw [Dispatch.ofCatches, Dispatch.succeeds_foldlM, pairwise_precedes_iff]
  exact and_iff_right fun _ _ => ⟨rfl, nofun⟩

theorem catchVar_ne_none_iff (hs : Handlers) :
    hs.catchVar ≠ none ↔ ∃ a ∈ hs.catches, a.var ≠ none := by
  rw [catchVar, ne_eq, List.findSome?_eq_none_iff]
  simp

/-- Handlers are acceptable if they are taken in and have a clause. -/
theorem isAcceptable_iff (hs : Handlers) :
    hs.IsAcceptable ↔
      Succeeds hs.check ∧ ∃ d, Dispatch.ofCatches hs.catches = .ok d ∧ Succeeds d.clause := by
  have hclause : ∀ d, Dispatch.ofCatches hs.catches = .ok d →
      (Succeeds d.clause ↔
        ((∃ a ∈ hs.catches, a.tested ≠ none) → ∃ a ∈ hs.catches, a.var ≠ none)) := by
    intro d hd
    obtain ⟨hvar, htested⟩ := Dispatch.of_ofCatches hd
    have hbound : d.var ≠ none ↔ ∃ a ∈ hs.catches, a.var ≠ none := by
      rw [hvar]
      exact hs.catchVar_ne_none_iff
    rw [Dispatch.succeeds_clause_iff, Dispatch.classes_ne_nil_iff htested, hbound]
  constructor
  · intro h
    obtain ⟨d, hd⟩ := hs.succeeds_ofCatches_iff.2 ⟨h.agree, h.tested⟩
    exact ⟨hs.succeeds_check_iff.2 h.hasArm, d, hd, (hclause d hd).2 h.bound⟩
  · rintro ⟨hcheck, d, hd, hsucceeds⟩
    obtain ⟨hagree, htested⟩ := hs.succeeds_ofCatches_iff.1 ⟨d, hd⟩
    exact ⟨hs.succeeds_check_iff.1 hcheck, hagree, htested, (hclause d hd).1 hsucceeds⟩

/-- The bodies of the arms are written if each of them is. -/
theorem succeeds_toTypeScript : ∀ {hs : Handlers}, (∀ b ∈ hs.bodies, b.Renders .typescript) →
    Succeeds hs.toTypeScript
  | .done, _ => ⟨_, rfl⟩
  | .cleanup body, h => succeeds_bind_pure.2 (h body (List.mem_singleton_self body))
  | .handler arm body rest, h => by
      obtain ⟨hbody, hrest⟩ := List.forall_mem_cons.1 h
      obtain ⟨others, hothers⟩ := succeeds_toTypeScript hrest
      exact (succeeds_bind fun _ => iff_true_intro
        (succeeds_bind_pure.2 ⟨others, hothers⟩)).2 ⟨hbody, trivial⟩

end Handlers

/-! ## Clauses that are written -/

/-- The tests for handlers of the given classes, in front of the end of a conditional. -/
def Branching.ofArms (last : Branching) : List (String × Nat) → Branching
  | [] => last
  | (name, place) :: arms => .test name place (ofArms last arms)

/-- The statements of a clause for handlers of the given classes and for the handler at the given
place, which takes what is left. Without such a handler, what is left is thrown again. -/
def CatchStmt.ofArms : List (String × Nat) → Option Nat → List CatchStmt
  | [], some place => [.handler place]
  | arms, some place => [.conditional (.ofArms (.otherwise place) arms)]
  | arms, none => [.conditional (.ofArms .done arms), .rethrow]

namespace Handlers

/-- The handlers for classes in their order: the classes, and the places of the handlers. -/
def typedArms (hs : Handlers) : List (String × Nat) :=
  (hs.catches.map Catch.tested).zipIdx.filterMap fun arm => arm.1.map (·, arm.2)

/-- The place of the first handler that catches everything. -/
def catchAll? (hs : Handlers) : Option Nat := (hs.catches.map Catch.tested).findIdx? Option.isNone

/-- The lines from the statements of a `try` to what runs in any case. -/
def clauseLines (hs : Handlers) (bodies : List (List Layout)) : List Layout :=
  if hs.catches.isEmpty then []
  else [.line (catchLine hs.catchVar),
    .nest (CatchStmt.printAll (hs.catchVar.getD "") bodies
      (CatchStmt.ofArms hs.typedArms hs.catchAll?))]

end Handlers

/-- Classes come before what the other handlers catch. -/
theorem Branching.ofTested_append (names : List String) (rest : List (Option String))
    (place : Nat) :
    ofTested place (names.map some ++ rest) =
      ofArms (ofTested (place + names.length) rest) (names.zipIdx place) := by
  induction names generalizing place with
  | nil => rfl
  | cons name names ih =>
      rw [List.map_cons, List.cons_append, ofTested, ih, List.zipIdx_cons, ofArms,
        List.length_cons, Nat.add_assoc, Nat.add_comm 1]

namespace Dispatch

/-- The handlers that were taken in for classes. -/
theorem filterMap_tested (d : Dispatch) (place : Nat) :
    (d.tested.zipIdx place).filterMap (fun arm => arm.1.map (·, arm.2)) = d.classes.zipIdx place := by
  obtain ⟨var, classes, catchesAll⟩ := d
  induction classes generalizing place with
  | nil => cases catchesAll <;> rfl
  | cons name names ih =>
      rw [tested_cons, List.zipIdx_cons, List.zipIdx_cons]
      exact congrArg ((name, place) :: ·) (ih (place + 1))

/-- The handler that was taken in for everything. -/
theorem findIdx?_tested (d : Dispatch) :
    d.tested.findIdx? Option.isNone = if d.catchesAll then some d.classes.length else none := by
  obtain ⟨var, classes, catchesAll⟩ := d
  induction classes with
  | nil => cases catchesAll <;> rfl
  | cons name names ih =>
      rw [tested_cons, List.findIdx?_cons]
      simp only [Option.isNone_some, Bool.false_eq_true, if_false, ih, List.length_cons]
      cases catchesAll <;> rfl

/-- The statements for the handlers that were taken in. -/
theorem ofTested_tested (d : Dispatch) :
    CatchStmt.ofTested d.tested =
      CatchStmt.ofArms d.classes.zipIdx (if d.catchesAll then some d.classes.length else none) := by
  obtain ⟨var, classes, catchesAll⟩ := d
  cases classes with
  | nil => cases catchesAll <;> rfl
  | cons name names =>
      have htests := fun rest => Branching.ofTested_append (name :: names) rest 0
      simp only [Nat.zero_add] at htests
      cases catchesAll with
      | false =>
          have hnone : none ∉ (name :: names).map some ++ [] := by simp
          show CatchStmt.conditional (.ofTested 0 ((name :: names).map some ++ [])) ::
            (if none ∈ (name :: names).map some ++ [] then [] else [.rethrow]) = _
          rw [htests [], if_neg hnone]
          rfl
      | true =>
          have hnone : none ∈ (name :: names).map some ++ [none] := by simp
          show CatchStmt.conditional (.ofTested 0 ((name :: names).map some ++ [none])) ::
            (if none ∈ (name :: names).map some ++ [none] then [] else [.rethrow]) = _
          rw [htests [none], if_pos hnone]
          rfl

end Dispatch

namespace Handlers

variable {hs : Handlers} {d : Dispatch}

theorem typedArms_eq (hd : Dispatch.ofCatches hs.catches = .ok d) :
    hs.typedArms = d.classes.zipIdx := by
  rw [typedArms, ← (Dispatch.of_ofCatches hd).2]
  exact d.filterMap_tested 0

theorem catchAll?_eq (hd : Dispatch.ofCatches hs.catches = .ok d) :
    hs.catchAll? = if d.catchesAll then some d.classes.length else none := by
  rw [catchAll?, ← (Dispatch.of_ofCatches hd).2, d.findIdx?_tested]

theorem length_tested (hd : Dispatch.ofCatches hs.catches = .ok d) :
    d.tested.length = hs.catches.length := by
  rw [(Dispatch.of_ofCatches hd).2, List.length_map]

/-- The handler that catches everything is the last one. -/
theorem catchAll?_last (hd : Dispatch.ofCatches hs.catches = .ok d) :
    ∀ place ∈ hs.catchAll?, place + 1 = hs.catches.length := by
  intro place hplace
  rw [catchAll?_eq hd] at hplace
  rw [← length_tested hd, Dispatch.tested]
  cases hall : d.catchesAll with
  | false =>
      rw [hall] at hplace
      cases hplace
  | true =>
      rw [hall] at hplace
      cases hplace
      simp

/-- Handlers that bind a variable bind the first one that is bound. -/
theorem catchVar_eq (h : ∀ a ∈ hs.catches, ∀ b ∈ hs.catches, a.Agrees b) :
    ∀ arm ∈ hs.catches, ∀ x ∈ arm.var, hs.catchVar = some x := by
  intro arm harm x hx
  obtain ⟨y, hy⟩ := Option.ne_none_iff_exists'.1
    (hs.catchVar_ne_none_iff.2 ⟨arm, harm, Option.ne_none_iff_exists'.2 ⟨x, hx⟩⟩)
  obtain ⟨first, hfirst, hfound⟩ := List.exists_of_findSome?_eq_some hy
  rw [hy, h first hfirst arm harm y hfound x hx]

/-- The clause of handlers that are taken in, with the bodies of all of them. -/
theorem toTypeScript_clause (hd : Dispatch.ofCatches hs.catches = .ok d) {clause : CatchClause}
    (hclause : d.clause = .ok clause) {bodies : List (List Layout)}
    (hlength : bodies.length = hs.catches.length) :
    clause.toTypeScript bodies = hs.clauseLines bodies := by
  unfold clauseLines
  cases hcatches : hs.catches with
  | nil =>
      rw [hcatches] at hd
      cases hd
      cases hclause
      rfl
  | cons arm arms =>
      have hsome : bodies ≠ [] := by
        rintro rfl
        rw [hcatches] at hlength
        cases hlength
      have hplaces : bodies.length = d.tested.length := by rw [hlength, length_tested hd]
      rw [CatchClause.toTypeScript_eq hclause hsome hplaces, d.ofTested_tested, typedArms_eq hd,
        catchAll?_eq hd, (Dispatch.of_ofCatches hd).1]
      rfl

end Handlers

/-- **Which `try` statements are written**, if all their bodies are: those that one untyped `catch`
is enough for. All others are refused as programs that make no sense. The clause of one that is
written tests the classes of its handlers, each once and in order, and the handler that catches
everything is the last branch or all of the clause. -/
theorem Stmt.attempt_accepted_iff {body : Body} {handlers : Handlers}
    (hbodies : ∀ b ∈ (Stmt.attempt body handlers).bodies, b.Renders .typescript) :
    (Succeeds (Stmt.attempt body handlers).toTypeScript ↔ handlers.IsAcceptable) ∧
    FailsWith IsFault (Stmt.attempt body handlers).toTypeScript ∧
    ∀ lines, (Stmt.attempt body handlers).toTypeScript = .ok lines →
      (∃ inner bodies after, body.toTypeScript = .ok inner ∧
        handlers.toTypeScript = .ok (bodies, after) ∧ bodies.length = handlers.catches.length ∧
        lines = .line "try \x7b" :: .nest inner ::
          (handlers.clauseLines bodies ++ after ++ [.line "\x7d"]) ∧
        (handlers.clauseLines bodies = [] ↔ handlers.catches = [])) ∧
      (∀ arm ∈ handlers.catches, ∀ x ∈ arm.var, handlers.catchVar = some x) ∧
      (handlers.typedArms ≠ [] → handlers.catchVar ≠ none) ∧
      ∀ place ∈ handlers.catchAll?, place + 1 = handlers.catches.length := by
  obtain ⟨hbody, harms⟩ := List.forall_mem_cons.1 hbodies
  obtain ⟨inner, hinner⟩ := hbody
  obtain ⟨⟨bodies, after⟩, hothers⟩ := Handlers.succeeds_toTypeScript harms
  refine ⟨?_, ?_, ?_⟩
  · rw [Handlers.isAcceptable_iff]
    constructor
    · rintro ⟨lines, h⟩
      obtain ⟨_, hcheck, h⟩ := bind_eq_ok.1 h
      obtain ⟨d, hd, h⟩ := bind_eq_ok.1 h
      obtain ⟨_, _, h⟩ := bind_eq_ok.1 h
      obtain ⟨clause, hclause, _⟩ := bind_eq_ok.1 h
      exact ⟨⟨_, hcheck⟩, d, hd, clause, hclause⟩
    · rintro ⟨⟨u, hcheck⟩, d, hd, clause, hclause⟩
      refine ⟨.line "try \x7b" :: .nest inner ::
        (clause.toTypeScript bodies ++ after ++ [.line "\x7d"]), ?_⟩
      exact bind_eq_ok.2 ⟨u, hcheck, bind_eq_ok.2 ⟨d, hd, bind_eq_ok.2 ⟨inner, hinner,
        bind_eq_ok.2 ⟨clause, hclause, bind_eq_ok.2 ⟨(bodies, after), hothers, rfl⟩⟩⟩⟩⟩
  · refine .bind handlers.failsWith_check fun _ _ => ?_
    refine .bind (Dispatch.failsWith_foldlM _ _) fun d _ => ?_
    rw [hinner, ok_bind]
    refine .bind d.failsWith_clause fun clause _ => ?_
    rw [hothers, ok_bind]
    exact .ok _
  · intro lines h
    obtain ⟨_, hcheck, h⟩ := bind_eq_ok.1 h
    obtain ⟨d, hd, h⟩ := bind_eq_ok.1 h
    obtain ⟨inner, hinner, h⟩ := bind_eq_ok.1 h
    obtain ⟨clause, hclause, h⟩ := bind_eq_ok.1 h
    obtain ⟨⟨bodies, after⟩, hothers, h⟩ := bind_eq_ok.1 h
    cases pure_eq_ok.1 h
    have hlength := Handlers.length_toTypeScript hothers
    have hacceptable := handlers.isAcceptable_iff.2 ⟨⟨_, hcheck⟩, d, hd, clause, hclause⟩
    have hempty : handlers.clauseLines bodies = [] ↔ handlers.catches = [] := by
      unfold Handlers.clauseLines
      cases handlers.catches <;> simp
    refine ⟨⟨inner, bodies, after, hinner, hothers, hlength, ?_, hempty⟩,
      Handlers.catchVar_eq hacceptable.agree, ?_, Handlers.catchAll?_last hd⟩
    · rw [Handlers.toTypeScript_clause hd hclause hlength]
    · intro htyped
      rw [Handlers.typedArms_eq hd] at htyped
      have hclasses : d.classes ≠ [] := fun h => htyped (by rw [h]; rfl)
      rw [Handlers.catchVar, ← (Dispatch.of_ofCatches hd).1]
      exact Dispatch.succeeds_clause_iff.1 ⟨clause, hclause⟩ hclasses

/-- Tests use the variable of another handler, and the handler for the rest comes last. -/
theorem Stmt.attempt_with_late_variable :
    let handlers : Handlers :=
      .handler ⟨none, ⟨none, some "TypeError", none⟩⟩ .empty
        (.handler ⟨some "e", ⟨none, some "RangeError", none⟩⟩ .empty
          (.handler ⟨none, ⟨some "KeyError", none, none⟩⟩ .empty .done))
    (∀ b ∈ (Stmt.attempt .empty handlers).bodies, b.Renders .typescript) ∧
      Succeeds (Stmt.attempt .empty handlers).toTypeScript ∧
      handlers.typedArms = [("TypeError", 0), ("RangeError", 1)] ∧ handlers.catchAll? = some 2 ∧
      handlers.catchVar = some "e" := by
  intro handlers
  have hbodies : ∀ b ∈ (Stmt.attempt .empty handlers).bodies, b.Renders .typescript := by
    intro b hb
    have hempty : b = .empty := by
      simpa [Stmt.bodies, handlers, Handlers.bodies] using hb
    rw [hempty]
    exact ⟨[], rfl⟩
  have hacceptable : handlers.IsAcceptable := by
    refine ⟨.inl (List.cons_ne_nil _ _), ?_, ?_, fun _ => ?_⟩
    · simp [handlers, Handlers.catches, Catch.Agrees]
    · simp [handlers, Handlers.catches, Catch.tested]
    · simp [handlers, Handlers.catches]
  exact ⟨hbodies, (Stmt.attempt_accepted_iff hbodies).1.2 hacceptable, rfl, rfl, rfl⟩

end Polyglot
