import Polyglot.Proofs.Outcome
import Polyglot.Proofs.Stmt.Render

/-!
# Statements that are written alike

A body is written from what is written of the bodies in it: where one body stands for another that
is written alike, nothing changes. Import requests play no part in it, for bodies and classes.

* `Body.Alike`, `Stmt.Alike` and their siblings : what is written in every language, and whether
  Python finds code.
* `Body.Alike.append`, `Stmt.Alike.conditional` and the like : one lemma for each way to put
  statements together.
-/

set_option autoImplicit false

namespace Polyglot

open Outcome

variable {b₁ b₂ b₁' b₂' : Body} {ss ss' : List Stmt} {rs rs' : Requests}

/-- The bodies are written alike, and hold code for Python alike. -/
structure Body.Alike (b b' : Body) : Prop where
  python : b.toPython = b'.toPython
  typescript : b.toTypeScript = b'.toTypeScript
  php : b.toPhp = b'.toPhp
  hasCode : b.hasCode = b'.hasCode

/-- The functions are written alike. -/
structure Function.Alike (f f' : Function) : Prop where
  python : f.toPython = f'.toPython
  typescript : f.toTypeScript = f'.toTypeScript
  php : f.toPhp = f'.toPhp

/-- The arms of conditionals are written alike. -/
structure Branches.Alike (bs bs' : Branches) : Prop where
  python : bs.toPython = bs'.toPython
  typescript : bs.toTypeScript = bs'.toTypeScript
  php : bs.toPhp = bs'.toPhp

/-- The arms of a `try` are written alike, and catch the same. -/
structure Handlers.Alike (hs hs' : Handlers) : Prop where
  python : hs.toPython = hs'.toPython
  typescript : hs.toTypeScript = hs'.toTypeScript
  php : hs.toPhp = hs'.toPhp
  check : hs.check = hs'.check
  catches : hs.catches = hs'.catches

/-- The statements are written alike, and are code for Python alike. -/
structure Stmt.Alike (s s' : Stmt) : Prop where
  python : s.toPython = s'.toPython
  typescript : s.toTypeScript = s'.toTypeScript
  php : s.toPhp = s'.toPhp
  hasCode : s.hasCode = s'.hasCode

/-! ## Bodies -/

namespace Body.Alike

theorem layout (h : Alike b₁ b₂) (t : Target) : b₁.layout t = b₂.layout t := by
  cases t with
  | python => exact h.python
  | typescript => exact h.typescript
  | php => exact h.php

/-- Requests are not written where they are made. -/
theorem requests (rs rs' : Requests) (ss : List Stmt) : Alike ⟨rs, ss⟩ ⟨rs', ss⟩ :=
  ⟨rfl, rfl, rfl, rfl⟩

theorem trans (h : Alike b₁ b₂) (h' : Alike b₂ b₁') : Alike b₁ b₁' :=
  ⟨h.python.trans h'.python, h.typescript.trans h'.typescript, h.php.trans h'.php,
    h.hasCode.trans h'.hasCode⟩

theorem cons {s s' : Stmt} (hs : Stmt.Alike s s') (h : Alike ⟨rs, ss⟩ ⟨rs', ss'⟩) :
    Alike ⟨rs, s :: ss⟩ ⟨rs', s' :: ss'⟩ := by
  have hpython : Stmt.toPythonAll ss = Stmt.toPythonAll ss' := h.python
  have htypescript : Stmt.toTypeScriptAll ss = Stmt.toTypeScriptAll ss' := h.typescript
  have hphp : Stmt.toPhpAll ss = Stmt.toPhpAll ss' := h.php
  have hcode : Stmt.anyCode ss = Stmt.anyCode ss' := h.hasCode
  constructor
  · rw [toPython, toPython, Stmt.toPythonAll, Stmt.toPythonAll, hs.python, hpython]
  · rw [toTypeScript, toTypeScript, Stmt.toTypeScriptAll, Stmt.toTypeScriptAll, hs.typescript,
      htypescript]
  · rw [toPhp, toPhp, Stmt.toPhpAll, Stmt.toPhpAll, hs.php, hphp]
  · rw [Body.hasCode, Body.hasCode, Stmt.anyCode, Stmt.anyCode, hs.hasCode, hcode]

end Body.Alike

/-! ## Functions -/

namespace Function

/-- A function is written from its signature and its body; an abstract one is asked whether the
body is empty. -/
theorem Alike.of_body (σ : Signature) (h : Body.Alike b₁ b₂)
    (hempty : σ.isAbstract = true → b₁.stmts.isEmpty = b₂.stmts.isEmpty) :
    Alike ⟨σ, b₁⟩ ⟨σ, b₂⟩ := by
  have hcheck : σ.checkBody b₁.stmts.isEmpty = σ.checkBody b₂.stmts.isEmpty := by
    cases habstract : σ.isAbstract with
    | false => simp [Signature.checkBody, habstract]
    | true => rw [hempty habstract]
  constructor
  · rw [toPython, toPython, hcheck, h.python, h.hasCode]
  · rw [toTypeScript, toTypeScript, hcheck, h.typescript]
  · rw [toPhp, toPhp, hcheck, h.php]

variable {fs fs' : List Function}

theorem toPythonAll_eq (h : List.Forall₂ Alike fs fs') : toPythonAll fs = toPythonAll fs' := by
  induction h with
  | nil => rfl
  | cons hf _ ih => rw [toPythonAll, toPythonAll, hf.python, ih]

theorem toTypeScriptAll_eq (h : List.Forall₂ Alike fs fs') :
    toTypeScriptAll fs = toTypeScriptAll fs' := by
  induction h with
  | nil => rfl
  | cons hf _ ih => rw [toTypeScriptAll, toTypeScriptAll, hf.typescript, ih]

theorem toPhpAll_eq (h : List.Forall₂ Alike fs fs') : toPhpAll fs = toPhpAll fs' := by
  induction h with
  | nil => rfl
  | cons hf _ ih => rw [toPhpAll, toPhpAll, hf.php, ih]

end Function

/-! ## Arms -/

namespace Branches.Alike

variable {bs bs' : Branches}

theorem done : Alike .done .done := ⟨rfl, rfl, rfl⟩

theorem otherwise (h : Body.Alike b₁ b₂) : Alike (.otherwise b₁) (.otherwise b₂) := by
  constructor
  · rw [toPython, toPython, h.python, h.hasCode]
  · rw [toTypeScript, toTypeScript, h.typescript]
  · rw [toPhp, toPhp, h.php]

theorem elseIf (test : Expr) (h : Body.Alike b₁ b₂) (hrest : Alike bs bs') :
    Alike (.elseIf test b₁ bs) (.elseIf test b₂ bs') := by
  constructor
  · rw [toPython, toPython, h.python, h.hasCode, hrest.python]
  · rw [toTypeScript, toTypeScript, h.typescript, hrest.typescript]
  · rw [toPhp, toPhp, h.php, hrest.php]

end Branches.Alike

namespace Handlers.Alike

variable {hs hs' : Handlers}

theorem done : Alike .done .done := ⟨rfl, rfl, rfl, rfl, rfl⟩

theorem cleanup (h : Body.Alike b₁ b₂) : Alike (.cleanup b₁) (.cleanup b₂) := by
  constructor
  · rw [toPython, toPython, h.python, h.hasCode]
  · rw [toTypeScript, toTypeScript, h.typescript]
  · rw [toPhp, toPhp, h.php]
  · rfl
  · rfl

theorem handler (arm : Catch) (h : Body.Alike b₁ b₂) (hrest : Alike hs hs') :
    Alike (.handler arm b₁ hs) (.handler arm b₂ hs') := by
  constructor
  · rw [toPython, toPython, h.python, h.hasCode, hrest.python]
  · rw [toTypeScript, toTypeScript, h.typescript, hrest.typescript]
  · rw [toPhp, toPhp, h.php, hrest.php]
  · rfl
  · rw [Handlers.catches, Handlers.catches, hrest.catches]

end Handlers.Alike

/-! ## Statements -/

namespace Stmt.Alike

theorem refl (s : Stmt) : Alike s s := ⟨rfl, rfl, rfl, rfl⟩

theorem conditional (test : Expr) (h : Body.Alike b₁ b₂) {bs bs' : Branches}
    (hbs : Branches.Alike bs bs') : Alike (.conditional test b₁ bs) (.conditional test b₂ bs') := by
  constructor
  · rw [toPython, toPython, h.python, h.hasCode, hbs.python]
  · rw [toTypeScript, toTypeScript, h.typescript, hbs.typescript]
  · rw [toPhp, toPhp, h.php, hbs.php]
  · rfl

theorem forEach (name : String) (iterable : Expr) (h : Body.Alike b₁ b₂) :
    Alike (.forEach name iterable b₁) (.forEach name iterable b₂) := by
  constructor
  · rw [toPython, toPython, h.python, h.hasCode]
  · rw [toTypeScript, toTypeScript, h.typescript]
  · rw [toPhp, toPhp, h.php]
  · rfl

theorem forEntries (key : Option String) (value : String) (iterable : Expr)
    (h : Body.Alike b₁ b₂) :
    Alike (.forEntries key value iterable b₁) (.forEntries key value iterable b₂) := by
  constructor
  · rw [toPython, toPython, h.python, h.hasCode]
  · cases key <;> simp only [toTypeScript, h.typescript]
  · cases key <;> simp only [toPhp, h.php]
  · rfl

theorem attempt (h : Body.Alike b₁ b₂) {hs hs' : Handlers} (hhs : Handlers.Alike hs hs') :
    Alike (.attempt b₁ hs) (.attempt b₂ hs') := by
  constructor
  · rw [toPython, toPython, hhs.check, h.python, h.hasCode, hhs.python]
  · rw [toTypeScript, toTypeScript, hhs.check, hhs.catches, h.typescript, hhs.typescript]
  · rw [toPhp, toPhp, hhs.check, h.php, hhs.php]
  · rfl

theorem function {f f' : Function} (h : Function.Alike f f') : Alike (.function f) (.function f') :=
  ⟨h.python, h.typescript, h.php, rfl⟩

theorem classDef (c : Class) (rs : Requests) {fs fs' : List Function}
    (h : List.Forall₂ Function.Alike fs fs') :
    Alike (.classDef { c with imports := rs } fs) (.classDef c fs') := by
  constructor
  · rw [toPython, toPython, Function.toPythonAll_eq h]
    rfl
  · rw [toTypeScript, toTypeScript, Function.toTypeScriptAll_eq h]
    rfl
  · rw [toPhp, toPhp, Function.toPhpAll_eq h]
    rfl
  · rfl

theorem block (h : Body.Alike b₁ b₂) : Alike (.block b₁) (.block b₂) :=
  ⟨h.python, h.typescript, h.php, h.hasCode⟩

end Stmt.Alike

end Polyglot
