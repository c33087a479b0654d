import Polyglot.Proofs.Stmt.Alike
import Polyglot.Stmt.Imports

/-!
# Splicing blocks

A block holds statements of the body around it. Its statements can stand in its place and its import
requests beside those of that body, in one go for all blocks in the tree: a statement becomes a body
of its own, which a block brings along and any other statement is alone in.

* `Body.spliced`, `Body.IsFlat` : a body with its blocks spliced, and that no block is left in it.
* `Body.alike_spliced` : it is written alike.
-/

set_option autoImplicit false

namespace Polyglot

open Outcome

/-- Statements behind statements, and requests beside requests. -/
instance : Append Body := ⟨fun a b => ⟨a.imports ++ b.imports, a.stmts ++ b.stmts⟩⟩

/-- A body with one statement and no requests. -/
def Body.single (s : Stmt) : Body := ⟨[], [s]⟩

mutual

/-- The body with all blocks in it spliced. -/
def Body.spliced : Body → Body
  | ⟨imports, stmts⟩ => ⟨imports, []⟩ ++ Stmt.splicedAll stmts

def Function.spliced : Function → Function
  | ⟨signature, body⟩ => ⟨signature, body.spliced⟩

def Function.splicedAll : List Function → List Function
  | [] => []
  | f :: fs => f.spliced :: Function.splicedAll fs

def Branches.spliced : Branches → Branches
  | .done => .done
  | .otherwise body => .otherwise body.spliced
  | .elseIf test body rest => .elseIf test body.spliced rest.spliced

def Handlers.spliced : Handlers → Handlers
  | .done => .done
  | .cleanup body => .cleanup body.spliced
  | .handler arm body rest => .handler arm body.spliced rest.spliced

/-- What stands in the place of a statement. -/
def Stmt.spliced : Stmt → Body
  | .plain p => .single (.plain p)
  | .conditional test body branches => .single (.conditional test body.spliced branches.spliced)
  | .forEach name iterable body => .single (.forEach name iterable body.spliced)
  | .forEntries key value iterable body => .single (.forEntries key value iterable body.spliced)
  | .attempt body handlers => .single (.attempt body.spliced handlers.spliced)
  | .function f => .single (.function f.spliced)
  | .classDef c methods => .single (.classDef c (Function.splicedAll methods))
  | .block body => body.spliced

def Stmt.splicedAll : List Stmt → Body
  | [] => .empty
  | s :: ss => s.spliced ++ Stmt.splicedAll ss

end

mutual

/-- No statement in the body is a block, at any depth. -/
def Body.IsFlat : Body → Prop
  | ⟨_, stmts⟩ => Stmt.AreFlat stmts

/-- No statement in the function is a block. -/
def Function.IsFlat : Function → Prop
  | ⟨_, body⟩ => body.IsFlat

def Function.AreFlat : List Function → Prop
  | [] => True
  | f :: fs => f.IsFlat ∧ Function.AreFlat fs

def Branches.IsFlat : Branches → Prop
  | .done => True
  | .otherwise body => body.IsFlat
  | .elseIf _ body rest => body.IsFlat ∧ rest.IsFlat

def Handlers.IsFlat : Handlers → Prop
  | .done => True
  | .cleanup body => body.IsFlat
  | .handler _ body rest => body.IsFlat ∧ rest.IsFlat

/-- The statement is no block, and no statement in it is. -/
def Stmt.IsFlat : Stmt → Prop
  | .plain _ => True
  | .conditional _ body branches => body.IsFlat ∧ branches.IsFlat
  | .forEach _ _ body | .forEntries _ _ _ body => body.IsFlat
  | .attempt body handlers => body.IsFlat ∧ handlers.IsFlat
  | .function f => f.IsFlat
  | .classDef _ methods => Function.AreFlat methods
  | .block _ => False

def Stmt.AreFlat : List Stmt → Prop
  | [] => True
  | s :: ss => s.IsFlat ∧ Stmt.AreFlat ss

end

mutual

/-- Abstract functions have no statements, wherever they stand in the body. -/
def Body.HasBareAbstracts : Body → Prop
  | ⟨_, stmts⟩ => Stmt.HaveBareAbstracts stmts

/-- The function has no statements if it is abstract, nor has an abstract function in it. -/
def Function.HasBareAbstracts : Function → Prop
  | ⟨signature, body⟩ => (signature.isAbstract = true → body.stmts = []) ∧ body.HasBareAbstracts

def Function.HaveBareAbstracts : List Function → Prop
  | [] => True
  | f :: fs => f.HasBareAbstracts ∧ Function.HaveBareAbstracts fs

def Branches.HasBareAbstracts : Branches → Prop
  | .done => True
  | .otherwise body => body.HasBareAbstracts
  | .elseIf _ body rest => body.HasBareAbstracts ∧ rest.HasBareAbstracts

def Handlers.HasBareAbstracts : Handlers → Prop
  | .done => True
  | .cleanup body => body.HasBareAbstracts
  | .handler _ body rest => body.HasBareAbstracts ∧ rest.HasBareAbstracts

/-- Abstract functions in the statement have no statements. -/
def Stmt.HasBareAbstracts : Stmt → Prop
  | .plain _ => True
  | .conditional _ body branches => body.HasBareAbstracts ∧ branches.HasBareAbstracts
  | .forEach _ _ body | .forEntries _ _ _ body | .block body => body.HasBareAbstracts
  | .attempt body handlers => body.HasBareAbstracts ∧ handlers.HasBareAbstracts
  | .function f => f.HasBareAbstracts
  | .classDef _ methods => Function.HaveBareAbstracts methods

def Stmt.HaveBareAbstracts : List Stmt → Prop
  | [] => True
  | s :: ss => s.HasBareAbstracts ∧ Stmt.HaveBareAbstracts ss

end

/-! ## Bodies behind each other -/

namespace Stmt

theorem toPythonAll_append (ss ss' : List Stmt) : toPythonAll (ss ++ ss') = (do
    let here ← toPythonAll ss
    let rest ← toPythonAll ss'
    return here ++ rest) :=
  collect_append toPython toPythonAll rfl (fun _ _ => by rw [toPythonAll]) ss ss'

theorem toTypeScriptAll_append (ss ss' : List Stmt) : toTypeScriptAll (ss ++ ss') = (do
    let here ← toTypeScriptAll ss
    let rest ← toTypeScriptAll ss'
    return here ++ rest) :=
  collect_append toTypeScript toTypeScriptAll rfl (fun _ _ => by rw [toTypeScriptAll]) ss ss'

theorem toPhpAll_append (ss ss' : List Stmt) : toPhpAll (ss ++ ss') = (do
    let here ← toPhpAll ss
    let rest ← toPhpAll ss'
    return here ++ rest) :=
  collect_append toPhp toPhpAll rfl (fun _ _ => by rw [toPhpAll]) ss ss'

theorem importsAll_append (t : Target) (ss ss' : List Stmt) :
    importsAll t (ss ++ ss') = (do
      let here ← importsAll t ss
      let rest ← importsAll t ss'
      return here ++ rest) :=
  collect_append (imports t) (importsAll t) rfl (fun _ _ => by rw [importsAll]) ss ss'

theorem anyCode_append (ss ss' : List Stmt) :
    anyCode (ss ++ ss') = (anyCode ss || anyCode ss') := by
  induction ss with
  | nil => rfl
  | cons s ss ih => rw [List.cons_append, anyCode, anyCode, ih, Bool.or_assoc]

theorem areFlat_append {ss ss' : List Stmt} (h : AreFlat ss) (h' : AreFlat ss') :
    AreFlat (ss ++ ss') := by
  induction ss with
  | nil => exact h'
  | cons s ss ih => exact ⟨h.1, ih h.2⟩

end Stmt

namespace Body

variable {a a' b b' : Body}

/-- Bodies that are written alike go behind bodies that are. -/
theorem Alike.append (ha : Alike a a') (hb : Alike b b') : Alike (a ++ b) (a' ++ b') := by
  obtain ⟨_, as⟩ := a
  obtain ⟨_, as'⟩ := a'
  obtain ⟨_, bs⟩ := b
  obtain ⟨_, bs'⟩ := b'
  constructor
  · show Stmt.toPythonAll (as ++ bs) = Stmt.toPythonAll (as' ++ bs')
    have hpython : Stmt.toPythonAll as = Stmt.toPythonAll as' := ha.python
    have hpython' : Stmt.toPythonAll bs = Stmt.toPythonAll bs' := hb.python
    rw [Stmt.toPythonAll_append, Stmt.toPythonAll_append, hpython, hpython']
  · show Stmt.toTypeScriptAll (as ++ bs) = Stmt.toTypeScriptAll (as' ++ bs')
    have htypescript : Stmt.toTypeScriptAll as = Stmt.toTypeScriptAll as' := ha.typescript
    have htypescript' : Stmt.toTypeScriptAll bs = Stmt.toTypeScriptAll bs' := hb.typescript
    rw [Stmt.toTypeScriptAll_append, Stmt.toTypeScriptAll_append, htypescript, htypescript']
  · show Stmt.toPhpAll (as ++ bs) = Stmt.toPhpAll (as' ++ bs')
    have hphp : Stmt.toPhpAll as = Stmt.toPhpAll as' := ha.php
    have hphp' : Stmt.toPhpAll bs = Stmt.toPhpAll bs' := hb.php
    rw [Stmt.toPhpAll_append, Stmt.toPhpAll_append, hphp, hphp']
  · show Stmt.anyCode (as ++ bs) = Stmt.anyCode (as' ++ bs')
    have hcode : Stmt.anyCode as = Stmt.anyCode as' := ha.hasCode
    have hcode' : Stmt.anyCode bs = Stmt.anyCode bs' := hb.hasCode
    rw [Stmt.anyCode_append, Stmt.anyCode_append, hcode, hcode']

/-- A statement alone in a body. -/
theorem Alike.single {s s' : Stmt} (h : Stmt.Alike s s') : Alike (single s) (single s') :=
  .cons h (.requests [] [] [])

/-- A block brings along its body. -/
theorem alike_block (b : Body) : Alike b (single (.block b)) := by
  have hempty : ∀ x : Except Error (List Layout), x = (do
      let here ← x
      let rest ← Except.ok []
      return here ++ rest) := by
    rintro (e | here)
    · rfl
    · show Except.ok here = Except.ok (here ++ [])
      rw [List.append_nil]
  exact ⟨hempty b.toPython, hempty b.toTypeScript, hempty b.toPhp, (Bool.or_false b.hasCode).symm⟩

theorem isFlat_append (ha : a.IsFlat) (hb : b.IsFlat) : (a ++ b).IsFlat := by
  obtain ⟨_, as⟩ := a
  obtain ⟨_, bs⟩ := b
  exact Stmt.areFlat_append ha hb

end Body

/-! ## Spliced bodies -/

mutual

theorem Body.alike_spliced : ∀ b : Body, b.HasBareAbstracts → Body.Alike b.spliced b
  | ⟨imports, stmts⟩, h =>
      ((Body.Alike.requests imports imports []).append (Stmt.alike_splicedAll stmts h)).trans
        (.requests (imports ++ []) imports stmts)

theorem Function.alike_spliced : ∀ f : Function, f.HasBareAbstracts → Function.Alike f.spliced f
  | ⟨signature, body⟩, ⟨hbare, h⟩ => by
      refine .of_body signature (Body.alike_spliced body h) fun habstract => ?_
      obtain ⟨imports, stmts⟩ := body
      cases hbare habstract
      rfl

theorem Function.alike_splicedAll : ∀ fs : List Function, Function.HaveBareAbstracts fs →
    List.Forall₂ Function.Alike (Function.splicedAll fs) fs
  | [], _ => .nil
  | f :: fs, h => .cons (Function.alike_spliced f h.1) (Function.alike_splicedAll fs h.2)

theorem Branches.alike_spliced : ∀ bs : Branches, bs.HasBareAbstracts →
    Branches.Alike bs.spliced bs
  | .done, _ => .done
  | .otherwise body, h => .otherwise (Body.alike_spliced body h)
  | .elseIf test body rest, h =>
      .elseIf test (Body.alike_spliced body h.1) (Branches.alike_spliced rest h.2)

theorem Handlers.alike_spliced : ∀ hs : Handlers, hs.HasBareAbstracts →
    Handlers.Alike hs.spliced hs
  | .done, _ => .done
  | .cleanup body, h => .cleanup (Body.alike_spliced body h)
  | .handler arm body rest, h =>
      .handler arm (Body.alike_spliced body h.1) (Handlers.alike_spliced rest h.2)

/-- What stands in the place of a statement is written like the statement alone. -/
theorem Stmt.alike_spliced : ∀ s : Stmt, s.HasBareAbstracts → Body.Alike s.spliced (.single s)
  | .plain p, _ => .single (.refl (.plain p))
  | .conditional test body branches, h =>
      .single (.conditional test (Body.alike_spliced body h.1)
        (Branches.alike_spliced branches h.2))
  | .forEach name iterable body, h => .single (.forEach name iterable (Body.alike_spliced body h))
  | .forEntries key value iterable body, h =>
      .single (.forEntries key value iterable (Body.alike_spliced body h))
  | .attempt body handlers, h =>
      .single (.attempt (Body.alike_spliced body h.1) (Handlers.alike_spliced handlers h.2))
  | .function f, h => .single (.function (Function.alike_spliced f h))
  | .classDef c methods, h =>
      .single (.classDef c c.imports (Function.alike_splicedAll methods h))
  | .block body, h => (Body.alike_spliced body h).trans body.alike_block

theorem Stmt.alike_splicedAll : ∀ ss : List Stmt, Stmt.HaveBareAbstracts ss →
    Body.Alike (Stmt.splicedAll ss) ⟨[], ss⟩
  | [], _ => .requests [] [] []
  | s :: ss, h => (Stmt.alike_spliced s h.1).append (Stmt.alike_splicedAll ss h.2)

end

mutual

theorem Body.isFlat_spliced : ∀ b : Body, b.spliced.IsFlat
  | ⟨_, stmts⟩ => Body.isFlat_append trivial (Stmt.isFlat_splicedAll stmts)

theorem Function.isFlat_spliced : ∀ f : Function, f.spliced.IsFlat
  | ⟨_, body⟩ => Body.isFlat_spliced body

theorem Function.areFlat_splicedAll : ∀ fs : List Function,
    Function.AreFlat (Function.splicedAll fs)
  | [] => trivial
  | f :: fs => ⟨Function.isFlat_spliced f, Function.areFlat_splicedAll fs⟩

theorem Branches.isFlat_spliced : ∀ bs : Branches, bs.spliced.IsFlat
  | .done => trivial
  | .otherwise body => Body.isFlat_spliced body
  | .elseIf _ body rest => ⟨Body.isFlat_spliced body, Branches.isFlat_spliced rest⟩

theorem Handlers.isFlat_spliced : ∀ hs : Handlers, hs.spliced.IsFlat
  | .done => trivial
  | .cleanup body => Body.isFlat_spliced body
  | .handler _ body rest => ⟨Body.isFlat_spliced body, Handlers.isFlat_spliced rest⟩

theorem Stmt.isFlat_spliced : ∀ s : Stmt, s.spliced.IsFlat
  | .plain _ => ⟨trivial, trivial⟩
  | .conditional _ body branches =>
      ⟨⟨Body.isFlat_spliced body, Branches.isFlat_spliced branches⟩, trivial⟩
  | .forEach _ _ body | .forEntries _ _ _ body => ⟨Body.isFlat_spliced body, trivial⟩
  | .attempt body handlers =>
      ⟨⟨Body.isFlat_spliced body, Handlers.isFlat_spliced handlers⟩, trivial⟩
  | .function f => ⟨Function.isFlat_spliced f, trivial⟩
  | .classDef _ methods => ⟨Function.areFlat_splicedAll methods, trivial⟩
  | .block body => Body.isFlat_spliced body

theorem Stmt.isFlat_splicedAll : ∀ ss : List Stmt, (Stmt.splicedAll ss).IsFlat
  | [] => trivial
  | s :: ss => Body.isFlat_append (Stmt.isFlat_spliced s) (Stmt.isFlat_splicedAll ss)

end

end Polyglot
