import Polyglot.Proofs.Writer.Braced
import Polyglot.Writer.Php

/-!
# What is written in PHP

The writers of statements write the layouts of the statements.

* `Stmt.writes_php`, `Body.writes_php` : statements and bodies.
-/

set_option autoImplicit false

namespace Polyglot

open Outcome WriteM

/-! ## Statements without bodies -/

theorem Assignment.writes_php : ∀ a : Assignment, Writes a.writePhp () a.toPhp
  | .assign _ _ => .of_follows <| .lift fun _ _ => .lift fun _ _ => .lastLines (.line0 _) rfl
  | .declare _ _ none => .of_follows (.throw _)
  | .declare _ none (some _) => .of_follows <| .lift fun _ _ => .lastLines (.line0 _) rfl
  | .declare _ (some _) (some _) => .of_follows <| .lift fun _ _ => .lines (.line0 _) <|
      .lift fun _ _ => .lastLines (.line0 _) rfl

theorem DictBuilder.writes_php (b : DictBuilder) : Writes b.writePhp () b.toPhp := by
  rw [writePhp, toPhp]
  cases b.guarded.isEmpty with
  | false => exact .of_follows (.throw _)
  | true =>
      exact .of_follows <| .lift fun _ _ => .lines (.line0 _) <| .lift fun _ _ =>
        .lastLines (.line0 _) rfl

theorem Interface.writes_php (i : Interface) : Writes i.writePhp () i.toPhp := by
  rw [writePhp, toPhp]
  cases i.properties.isEmpty with
  | false => exact .of_follows (.throw _)
  | true => exact .of_follows <| .lines (.line0 _) <| .lastLines (.line0 _) rfl

theorem Plain.writes_php (p : Plain) : Writes p.writePhp () p.toPhp := by
  cases p with
  | blank => exact .blankLine
  | comment text => exact .marked "// " text
  | expr e => exact .of_follows (.lift fun _ _ => .lastLines (.line0 _) rfl)
  | snippet codes =>
      obtain ⟨python, typescript, php⟩ := codes
      cases php with
      | missing => exact .of_follows (.throw _)
      | omitted => exact .of_follows (.pure rfl)
      | code text => exact .line0 text
  | raise r => exact .of_follows (.lift fun _ _ => .lastLines (.line0 _) rfl)
  | ret value =>
      cases value with
      | «omit» => exact .line0 _
      | _ => exact .of_follows (.lift fun _ _ => .lastLines (.line0 _) rfl)
  | assign a => exact a.writes_php
  | append list value =>
      exact .of_follows (.lift fun _ _ => .lift fun _ _ => .lastLines (.line0 _) rfl)
  | build b => exact b.writes_php
  | interface i => exact i.writes_php

/-! ## Functions -/

/-- The parameters are written line by line, and nested together in the layout. -/
theorem Param.writes_phpAll : ∀ ps : List Param, Writes (writePhpAll ps) () (do
    let params ← ps.mapM Param.toPhp
    return [.nest (Layout.phpParams params)])
  | [] => .of_run fun w => w.append_nest_nil.symm ▸ rfl
  | [last] => by
      rw [List.mapM_cons, List.mapM_nil]
      simp only [bind_assoc, pure_bind]
      exact .of_follows <| .lift fun _ _ => .lastLines (.line1 _) rfl
  | p :: q :: ps => by
      rw [List.mapM_cons]
      simp only [bind_assoc, pure_bind]
      refine .of_follows <| .lift fun text _ => .lines (.line1 _) <|
        .lastAlike (writes_phpAll (q :: ps)) fun params hparams w => ?_
      -- a comma stands behind every parameter with another one behind it
      rw [List.mapM_cons] at hparams
      obtain ⟨next, -, hparams⟩ := bind_eq_ok.1 hparams
      obtain ⟨rest, -, hparams⟩ := bind_eq_ok.1 hparams
      cases pure_eq_ok.1 hparams
      rw [List.nil_append, w.append_append]
      exact (w.append_nest_append [.line (text ++ ",")] _).symm

/-- A function is written around its statements. -/
theorem Signature.writes_php (s : Signature) {isEmpty : Bool} {block : WriteM Unit}
    {x : Except Error (List Layout)} (hblock : Writes block () x)
    (hempty : isEmpty = true → x = .ok []) :
    Writes (s.writePhp isEmpty block) () (do
      s.checkBody isEmpty
      let head ← s.phpHead
      let inner ← x
      return head ++ s.bracedBody inner) := by
  rw [phpHead]
  simp only [bind_assoc, pure_bind]
  refine .of_follows <| .lift fun _ hcheck => .lift fun _ _ => .lines (.docBlock _) <|
    .lines (.line0 _) <| .stepOf (Param.writes_phpAll _) fun params _ => .lift fun result _ =>
    .lastOf (s.writes_braced hblock hempty hcheck) fun inner _ => ?_
  simp only [List.nil_append, List.append_assoc, List.cons_append]
  rfl

/-! ## Classes -/

namespace Class

theorem writes_phpProperty (p : Property) : Writes (writePhpProperty p) () (phpProperty p) :=
  .of_follows <| .lift fun _ _ => .lines (.line0 _) <| .lift fun _ _ => .lastLines (.line0 _) rfl

/-- A constructor is not abstract. -/
theorem writes_phpConstructor {c : Class} {k : Constructor}
    (hk : c.constructor .php = .ok (some k)) : Writes k.writePhp () k.toPhp := by
  have hempty (h : k.body.isEmpty = true) : Plain.toPhpAll k.body = .ok [] := by
    rw [List.isEmpty_iff.1 h]
    rfl
  have h := k.signature.writes_php (.forM Plain.writes_php k.body) hempty
  rw [checkBody_of_constructor hk] at h
  exact h

end Class

/-! ## The tree -/

theorem Body.toPhp_of_isEmpty (b : Body) (h : b.stmts.isEmpty = true) : b.toPhp = .ok [] := by
  obtain ⟨imports, stmts⟩ := b
  cases List.isEmpty_iff.1 h
  rfl

mutual

/-- The statements of a body are written. -/
theorem Body.writes_php : ∀ b : Body, Writes b.writePhp () b.toPhp
  | ⟨_, stmts⟩ => Stmt.writes_phpAll stmts

theorem Function.writes_php : ∀ f : Function, Writes f.writePhp () f.toPhp
  | ⟨signature, body⟩ => signature.writes_php body.writes_php body.toPhp_of_isEmpty

theorem Function.writes_phpAll : ∀ (needBlank : Bool) (fs : List Function),
    Writes (Function.writePhpAll needBlank fs) () (do
      let lss ← Function.toPhpAll fs
      return Layout.spaced needBlank lss)
  | _, [] => .of_follows (.pure rfl)
  | needBlank, f :: fs => by
      rw [Function.toPhpAll]
      simp only [bind_assoc, pure_bind]
      exact .of_follows <| .lines (.when .blankLine _) <| .step f.writes_php fun _ _ =>
        .lastOf (Function.writes_phpAll true fs) fun _ _ => rfl

theorem Branches.writes_php : ∀ bs : Branches, Writes bs.writePhp () bs.toPhp
  | .done => .of_follows (.pure rfl)
  | .otherwise body => .of_follows <| .lines (.line0 _) <| .lastNested body.writes_php fun _ _ => rfl
  | .elseIf _ body rest => .of_follows <| .lift fun _ _ => .lines (.line0 _) <|
      .nested body.writes_php fun _ _ => .last rest.writes_php fun _ _ => rfl

theorem Handlers.writes_php : ∀ hs : Handlers, Writes hs.writePhp () hs.toPhp
  | .done => .of_follows (.pure rfl)
  | .cleanup body => .of_follows <| .lines (.line0 _) <| .lastNested body.writes_php fun _ _ => rfl
  | .handler _ body rest => .of_follows <| .lines (.line0 _) <|
      .nested body.writes_php fun _ _ => .last rest.writes_php fun _ _ => rfl

theorem Stmt.writes_php : ∀ s : Stmt, Writes s.writePhp () s.toPhp
  | .plain p => p.writes_php
  | .conditional _ body branches => .of_follows <| .lift fun _ _ => .lines (.line0 _) <|
      .nested body.writes_php fun _ _ => .step branches.writes_php fun _ _ =>
      .lines (.line0 _) <| .lastLines .blankLine (by simp)
  | .forEach _ _ body => .of_follows <| .lift fun _ _ => .lines (.line0 _) <|
      .nested body.writes_php fun _ _ => .lines (.line0 _) <| .lastLines .blankLine rfl
  | .forEntries _ _ _ body => .of_follows <| .lift fun _ _ => .lines (.line0 _) <|
      .nested body.writes_php fun _ _ => .lines (.line0 _) <| .lastLines .blankLine rfl
  | .attempt body handlers => .of_follows <| .lift fun _ _ => .lines (.line0 _) <|
      .nested body.writes_php fun _ _ => .step handlers.writes_php fun _ _ =>
      .lastLines (.line0 _) rfl
  | .function f => f.writes_php
  | .classDef c methods => Class.writes_braced Class.writes_phpProperty
      (fun _ hk => Class.writes_phpConstructor hk)
      (fun needBlank => Function.writes_phpAll needBlank methods) _
  | .block body => body.writes_php

theorem Stmt.writes_phpAll : ∀ ss : List Stmt,
    Writes (Stmt.writePhpAll ss) () (Stmt.toPhpAll ss)
  | [] => .of_follows (.pure rfl)
  | s :: ss => .of_follows <| .step s.writes_php fun _ _ =>
      .last (Stmt.writes_phpAll ss) fun _ _ => rfl

end

end Polyglot
