import Polyglot.Proofs.Handlers.Dispatch
import Polyglot.Proofs.Stmt.Constructor
import Polyglot.Proofs.Writer.Braced
import Polyglot.Writer.TypeScript

/-!
# What is written in TypeScript

The writers of statements write the layouts of the statements. The layout of a `try` is put together
when the bodies of all handlers are known; the writer goes through the handlers once for the
clause and once for what runs in any case.

* `Stmt.writes_typeScript`, `Body.writes_typeScript` : statements and bodies.
-/

set_option autoImplicit false

namespace Polyglot

open Outcome WriteM

/-! ## Statements without bodies -/

theorem Assignment.writes_typeScript : ∀ a : Assignment, Writes a.writeTypeScript () a.toTypeScript
  | .assign _ _ => .of_follows <| .lift fun _ _ => .lift fun _ _ => .lastLines (.line0 _) rfl
  | .declare _ _ _ => .of_follows <| .lift fun _ _ => .lift fun _ _ => .lastLines (.line0 _) rfl

/-- A pair that may be left out, behind its test. -/
theorem BuilderEntry.writes_typeScriptGuard (name : String) (e : BuilderEntry) :
    Writes (do
      line0 ("if (" ++ (← (Expr.supplied e.value).typeScriptText) ++ ") \x7b")
      line1 (name ++ "[" ++ Text.Quoted.encode e.key ++ "] = " ++ (← e.value.typeScriptText) ++ ";")
      line0 "\x7d") () (e.typeScriptGuard name) :=
  .of_follows <| .lift fun _ _ => .lines (.line0 _) <| .lift fun _ _ => .lines (.line1 _) <|
    .lastLines (.line0 _) rfl

theorem DictBuilder.writes_typeScript (b : DictBuilder) :
    Writes b.writeTypeScript () b.toTypeScript :=
  .of_follows <| .lift fun _ _ => .lift fun _ _ => .lines (.line0 _) <|
    .lastOf (.forM (BuilderEntry.writes_typeScriptGuard b.name) _) fun _ _ => rfl

theorem Interface.writes_typeScript (i : Interface) :
    Writes i.writeTypeScript () i.toTypeScript := by
  have hproperty (p : String × Ty) : Writes (do
      line1 (p.1 ++ ": " ++ (← p.2.typeScriptText) ++ ";")) () (do
      let l ← (do
        let ty ← p.2.typeScriptText
        return .line (p.1 ++ ": " ++ ty ++ ";") : Except Error Layout)
      return [.nest [l]]) := by
    rw [bind_assoc]
    exact .of_follows <| .lift fun _ _ => .lastLines (.line1 _) rfl
  exact .of_follows <| .lines (.line0 _) <| .stepOf (.forM_nested hproperty _) fun _ _ =>
    .lastLines (.line0 _) rfl

theorem Plain.writes_typeScript (p : Plain) : Writes p.writeTypeScript () p.toTypeScript := by
  cases p with
  | blank => exact .blankLine
  | comment text => exact .marked "// " text
  | expr e => exact .of_follows (.lift fun _ _ => .lastLines (.line0 _) rfl)
  | snippet codes =>
      obtain ⟨python, typescript, php⟩ := codes
      cases typescript with
      | missing => exact .of_follows (.throw _)
      | omitted => exact .of_follows (.pure rfl)
      | code text => exact .line0 text
  | raise r => exact .of_follows (.lift fun _ _ => .lastLines (.line0 _) rfl)
  | ret value =>
      cases value with
      | «omit» => exact .line0 _
      | _ => exact .of_follows (.lift fun _ _ => .lastLines (.line0 _) rfl)
  | assign a => exact a.writes_typeScript
  | append list value =>
      exact .of_follows (.lift fun _ _ => .lift fun _ _ => .lastLines (.line0 _) rfl)
  | build b => exact b.writes_typeScript
  | interface i => exact i.writes_typeScript

/-! ## Functions -/

theorem Param.writes_typeScript (p : Param) :
    Writes (do line1 ((← p.typeScriptText) ++ ",")) () (do
      let l ← p.toTypeScript
      return [.nest [l]]) := by
  have hline : p.toTypeScript = (do
      let text ← p.typeScriptText
      return .line (text ++ ",")) := by
    simp only [toTypeScript, typeScriptText, bind_assoc, pure_bind]
  rw [hline, bind_assoc]
  exact .of_follows <| .lift fun _ _ => .lastLines (.line1 _) rfl

/-- A function is written around its statements; one that is abstract has none. -/
theorem Signature.writes_typeScript (s : Signature) {isEmpty : Bool} {block : WriteM Unit}
    {x : Except Error (List Layout)} (hblock : Writes block () x)
    (hempty : isEmpty = true → x = .ok []) :
    Writes (s.writeTypeScript isEmpty block) () (do
      s.checkBody isEmpty
      let head ← s.typeScriptHead
      let inner ← x
      return head ++ s.bracedBody inner) := by
  rw [typeScriptHead]
  simp only [bind_assoc, pure_bind]
  refine .of_follows <| .lift fun _ hcheck => .lift fun _ _ => .lines (.docBlock _) <|
    .lines (.forM_line0 _ _) <| .lines (.line0 _) <| .stepOf (.forM_nested Param.writes_typeScript _)
    fun params _ => .lift fun result _ => .lastOf (s.writes_braced hblock hempty hcheck)
    fun inner _ => ?_
  simp only [List.nil_append, List.append_assoc, List.cons_append]
  rfl

/-! ## Classes -/

namespace Class

theorem writes_typeScriptProperty (p : Property) :
    Writes (writeTypeScriptProperty p) () (typeScriptProperty p) := by
  have hobservable : Writes (do
      blankLine
      line0 "@observable") () (.ok [.blank, .line "@observable"]) :=
    .of_follows <| .lines .blankLine <| .lastLines (.line0 _) rfl
  exact .of_follows <| .lines (hobservable.when _) <| .lift fun _ _ => .lift fun _ _ =>
    .lastLines (.line0 _) rfl

/-- A constructor is not abstract. -/
theorem writes_typeScriptConstructor {c : Class} {k : Constructor}
    (hk : c.constructor .typescript = .ok (some k)) :
    Writes k.writeTypeScript () k.toTypeScript := by
  have hempty (h : k.body.isEmpty = true) : Plain.toTypeScriptAll k.body = .ok [] := by
    rw [List.isEmpty_iff.1 h]
    rfl
  have h := k.signature.writes_typeScript (.forM Plain.writes_typeScript k.body) hempty
  rw [checkBody_of_constructor hk] at h
  exact h

end Class

/-! ## Handlers -/

namespace Handlers

/-- The bodies of the handlers. -/
def typeScriptBodies : Handlers → Except Error (List (List Layout))
  | .done | .cleanup _ => .ok []
  | .handler _ body rest => do
    let inner ← body.toTypeScript
    let others ← rest.typeScriptBodies
    return inner :: others

/-- What runs in any case. -/
def typeScriptCleanup : Handlers → Except Error (List Layout)
  | .done => .ok []
  | .cleanup body => do
    let inner ← body.toTypeScript
    return [.line "\x7d finally \x7b", .nest inner]
  | .handler _ _ rest => rest.typeScriptCleanup

/-- The bodies come before what runs in any case. -/
theorem toTypeScript_eq (hs : Handlers) : hs.toTypeScript = (do
    let bodies ← hs.typeScriptBodies
    let cleanup ← hs.typeScriptCleanup
    return (bodies, cleanup)) := by
  cases hs with
  | done => rfl
  | cleanup body =>
      simp only [toTypeScript, typeScriptBodies, typeScriptCleanup, ok_bind, bind_assoc, pure_bind]
  | handler arm body rest =>
      simp only [toTypeScript, typeScriptBodies, typeScriptCleanup, toTypeScript_eq rest, bind_assoc,
        pure_bind]

theorem typeScriptBodies_of_catches_nil {hs : Handlers} (h : hs.catches = []) :
    hs.typeScriptBodies = .ok [] := by
  cases hs with
  | done | cleanup => rfl
  | handler arm body rest => cases h

end Handlers

/-- The clause is written around what is written for the handlers. -/
theorem Dispatch.writes_clause {d : Dispatch} {hs : Handlers} {clause : CatchClause}
    {last : WriteM Unit} {tests : String → WriteM Unit}
    (hdispatch : ofCatches hs.catches = .ok d) (hclause : d.clause = .ok clause)
    (hlast : hs.catches.map Catch.tested = [none] → Writes last () (do
      let bodies ← hs.typeScriptBodies
      return bodies.flatten))
    (htests : ∀ var, hs.catches.map Catch.tested = d.tested → Writes (tests var) () (do
      let bodies ← hs.typeScriptBodies
      return CatchClause.tests var "" d.classes bodies)) :
    Writes (clause.writeTypeScript last tests) () (do
      let bodies ← hs.typeScriptBodies
      return clause.toTypeScript bodies) := by
  obtain ⟨-, htested⟩ := of_ofCatches hdispatch
  obtain ⟨var, classes, catchesAll⟩ := d
  cases classes with
  | nil =>
      cases catchesAll with
      | false =>
          cases hclause
          rw [Handlers.typeScriptBodies_of_catches_nil (List.map_eq_nil_iff.1 htested.symm)]
          exact .of_follows (.pure rfl)
      | true =>
          cases hclause
          have hnested := (hlast htested.symm).nestedOf
          cases var with
          | none => exact .of_follows <| .lines (.line0 _) <| .lastOf hnested fun _ _ => rfl
          | some var => exact .of_follows <| .lines (.line0 _) <| .lastOf hnested fun _ _ => rfl
  | cons name names =>
      cases var with
      | none => cases hclause
      | some var =>
          cases hclause
          have hnested := (htests var htested.symm).nestedOf
          exact .of_follows <| .lines (.line0 _) <| .lastOf hnested fun _ _ => rfl

/-! ## The tree -/

theorem Body.toTypeScript_of_isEmpty (b : Body) (h : b.stmts.isEmpty = true) :
    b.toTypeScript = .ok [] := by
  obtain ⟨imports, stmts⟩ := b
  cases List.isEmpty_iff.1 h
  rfl

mutual

/-- The statements of a body are written. -/
theorem Body.writes_typeScript : ∀ b : Body, Writes b.writeTypeScript () b.toTypeScript
  | ⟨_, stmts⟩ => Stmt.writes_typeScriptAll stmts

theorem Function.writes_typeScript : ∀ f : Function, Writes f.writeTypeScript () f.toTypeScript
  | ⟨signature, body⟩ =>
    signature.writes_typeScript body.writes_typeScript body.toTypeScript_of_isEmpty

theorem Function.writes_typeScriptAll : ∀ (needBlank : Bool) (fs : List Function),
    Writes (Function.writeTypeScriptAll needBlank fs) () (do
      let lss ← Function.toTypeScriptAll fs
      return Layout.spaced needBlank lss)
  | _, [] => .of_follows (.pure rfl)
  | needBlank, f :: fs => by
      rw [Function.toTypeScriptAll]
      simp only [bind_assoc, pure_bind]
      exact .of_follows <| .lines (.when .blankLine _) <| .step f.writes_typeScript fun _ _ =>
        .lastOf (Function.writes_typeScriptAll true fs) fun _ _ => rfl

theorem Branches.writes_typeScript : ∀ bs : Branches, Writes bs.writeTypeScript () bs.toTypeScript
  | .done => .of_follows (.pure rfl)
  | .otherwise body => .of_follows <| .lines (.line0 _) <|
      .lastNested body.writes_typeScript fun _ _ => rfl
  | .elseIf _ body rest => .of_follows <| .lift fun _ _ => .lines (.line0 _) <|
      .nested body.writes_typeScript fun _ _ => .last rest.writes_typeScript fun _ _ => rfl

theorem Handlers.writes_typeScriptLast : ∀ hs : Handlers,
    hs.catches.map Catch.tested = [none] → Writes hs.writeTypeScriptLast () (do
      let bodies ← hs.typeScriptBodies
      return bodies.flatten)
  | .done, h | .cleanup _, h => nomatch h
  | .handler arm body rest, h => by
      obtain ⟨harm, hrest⟩ := List.cons.inj h
      rw [Handlers.writeTypeScriptLast, Handlers.typeScriptBodies,
        Handlers.typeScriptBodies_of_catches_nil (List.map_eq_nil_iff.1 hrest), bind_assoc]
      rw [Catch.tested] at harm
      rw [harm]
      exact .of_follows <| .last body.writes_typeScript fun _ _ => by simp

theorem Handlers.writes_typeScriptTests (var : String) : ∀ (keyword : String) (d : Dispatch)
    (hs : Handlers), hs.catches.map Catch.tested = d.tested →
      Writes (hs.writeTypeScriptTests var keyword) () (do
        let bodies ← hs.typeScriptBodies
        return CatchClause.tests var keyword d.classes bodies)
  | keyword, ⟨_, [], false⟩, .done, _ | keyword, ⟨_, [], false⟩, .cleanup _, _ =>
    .of_follows <| .lines (.line0 _) <| .lastLines (.line0 _) rfl
  | keyword, ⟨_, [], true⟩, .handler arm body rest, h => by
      obtain ⟨harm, hrest⟩ := List.cons.inj h
      rw [Handlers.writeTypeScriptTests, Handlers.typeScriptBodies,
        Handlers.typeScriptBodies_of_catches_nil (List.map_eq_nil_iff.1 hrest), bind_assoc]
      rw [Catch.tested] at harm
      rw [harm]
      exact .of_follows <| .lines (.line0 _) <| .nested body.writes_typeScript fun _ _ =>
        .lastLines (.line0 _) rfl
  | keyword, ⟨v, name :: names, all⟩, .handler arm body rest, h => by
      obtain ⟨harm, hrest⟩ := List.cons.inj h
      rw [Handlers.writeTypeScriptTests, Handlers.typeScriptBodies]
      rw [Catch.tested] at harm
      rw [harm]
      simp only [bind_assoc, pure_bind]
      exact .of_follows <| .lines (.line0 _) <| .nested body.writes_typeScript fun _ _ =>
        .lastOf (Handlers.writes_typeScriptTests var "\x7d else " ⟨v, names, all⟩ rest hrest)
          fun _ _ => rfl

theorem Handlers.writes_typeScriptCleanup : ∀ hs : Handlers,
    Writes hs.writeTypeScriptCleanup () hs.typeScriptCleanup
  | .done => .of_follows (.pure rfl)
  | .cleanup body => .of_follows <| .lines (.line0 _) <|
      .lastNested body.writes_typeScript fun _ _ => rfl
  | .handler _ _ rest => rest.writes_typeScriptCleanup

theorem Stmt.writes_typeScript : ∀ s : Stmt, Writes s.writeTypeScript () s.toTypeScript
  | .plain p => p.writes_typeScript
  | .conditional _ body branches => .of_follows <| .lift fun _ _ => .lines (.line0 _) <|
      .nested body.writes_typeScript fun _ _ => .step branches.writes_typeScript fun _ _ =>
      .lines (.line0 _) <| .lastLines .blankLine (by simp)
  | .forEach _ _ body => .of_follows <| .lift fun _ _ => .lines (.line0 _) <|
      .nested body.writes_typeScript fun _ _ => .lines (.line0 _) <| .lastLines .blankLine rfl
  | .forEntries _ _ _ body => .of_follows <| .lift fun _ _ => .lines (.line0 _) <|
      .nested body.writes_typeScript fun _ _ => .lines (.line0 _) <| .lastLines .blankLine rfl
  | .attempt body handlers => by
      rw [Stmt.toTypeScript, Handlers.toTypeScript_eq]
      simp only [bind_assoc, pure_bind]
      exact .of_follows <| .lift fun _ _ => .lift fun d hd => .lines (.line0 _) <|
        .nested body.writes_typeScript fun _ _ => .lift fun clause hclause =>
        .stepOf (d.writes_clause hd hclause handlers.writes_typeScriptLast
          fun var => handlers.writes_typeScriptTests var "" d) fun _ _ =>
        .step handlers.writes_typeScriptCleanup fun _ _ => .lastLines (.line0 _) (by simp)
  | .function f => f.writes_typeScript
  | .classDef c methods => Class.writes_braced Class.writes_typeScriptProperty
      (fun _ hk => Class.writes_typeScriptConstructor hk)
      (fun needBlank => Function.writes_typeScriptAll needBlank methods) _
  | .block body => body.writes_typeScript

theorem Stmt.writes_typeScriptAll : ∀ ss : List Stmt,
    Writes (Stmt.writeTypeScriptAll ss) () (Stmt.toTypeScriptAll ss)
  | [] => .of_follows (.pure rfl)
  | s :: ss => .of_follows <| .step s.writes_typeScript fun _ _ =>
      .last (Stmt.writes_typeScriptAll ss) fun _ _ => rfl

end

end Polyglot
