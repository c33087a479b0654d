import Polyglot.Expr.Render

/-!
# Lists of expressions

The writers go through lists of expressions by functions of their own. Each of them writes the
members one after the other and stops at the first error.

* `Expr.renderAll`, `Expr.renderNamed`, `Expr.renderParts` : the functions, for any language.
* `Expr.toPythonAll_eq_mapM` and its siblings : several expressions are written by a map.
* `Expr.toPythonNamed_eq_mapM` and its siblings : so are named values.
* `Part.toPythonAll_eq_mapM` and its siblings : so are the parts of a text.
-/

set_option autoImplicit false

namespace Polyglot.Expr

def renderAll (es : List Expr) : Target → Except Error (List Code)
  | .python => toPythonAll es
  | .typescript => toTypeScriptAll es
  | .php => toPhpAll es

def renderNamed (es : List (String × Expr)) : Target → Except Error (List (String × Code))
  | .python => toPythonNamed es
  | .typescript => toTypeScriptNamed es
  | .php => toPhpNamed es

def renderParts (ps : List Part) : Target → Except Error (List String)
  | .python => Part.toPythonAll ps
  | .typescript => Part.toTypeScriptAll ps
  | .php => Part.toPhpAll ps

/-! ## Lists as maps -/

theorem toPythonAll_eq_mapM (es : List Expr) : toPythonAll es = es.mapM toPython := by
  induction es with
  | nil => rfl
  | cons e es ih => rw [toPythonAll, List.mapM_cons, ih]

theorem toTypeScriptAll_eq_mapM (es : List Expr) : toTypeScriptAll es = es.mapM toTypeScript := by
  induction es with
  | nil => rfl
  | cons e es ih => rw [toTypeScriptAll, List.mapM_cons, ih]

theorem toPhpAll_eq_mapM (es : List Expr) : toPhpAll es = es.mapM toPhp := by
  induction es with
  | nil => rfl
  | cons e es ih => rw [toPhpAll, List.mapM_cons, ih]

/-- The code of a named value in Python. -/
def namedToPython (e : String × Expr) : Except Error (String × Code) := do
  let c ← e.2.toPython
  return (e.1, c)

theorem toPythonNamed_eq_mapM (es : List (String × Expr)) :
    toPythonNamed es = es.mapM namedToPython := by
  induction es with
  | nil => rfl
  | cons e es ih =>
      rw [toPythonNamed, List.mapM_cons, ih, namedToPython]
      cases e.2.toPython <;> rfl

/-- The code of a named value in TypeScript. -/
def namedToTypeScript (e : String × Expr) : Except Error (String × Code) := do
  let c ← e.2.toTypeScript
  return (e.1, c)

theorem toTypeScriptNamed_eq_mapM (es : List (String × Expr)) :
    toTypeScriptNamed es = es.mapM namedToTypeScript := by
  induction es with
  | nil => rfl
  | cons e es ih =>
      rw [toTypeScriptNamed, List.mapM_cons, ih, namedToTypeScript]
      cases e.2.toTypeScript <;> rfl

/-- The code of a named value in PHP. -/
def namedToPhp (e : String × Expr) : Except Error (String × Code) := do
  let c ← e.2.toPhp
  return (e.1, c)

theorem toPhpNamed_eq_mapM (es : List (String × Expr)) : toPhpNamed es = es.mapM namedToPhp := by
  induction es with
  | nil => rfl
  | cons e es ih =>
      rw [toPhpNamed, List.mapM_cons, ih, namedToPhp]
      cases e.2.toPhp <;> rfl

end Polyglot.Expr

namespace Polyglot

def Part.toPython : Part → Except Error String
  | .chars s => .ok (Text.FString.encode s)
  | .value e => do
    let c ← e.toPython
    return "\x7b" ++ c.text ++ "\x7d"

theorem Part.toPythonAll_eq_mapM (ps : List Part) : toPythonAll ps = ps.mapM toPython := by
  induction ps with
  | nil => rfl
  | cons p ps ih =>
      cases p with
      | chars s => rw [toPythonAll, List.mapM_cons, ih]; rfl
      | value e =>
          rw [toPythonAll, List.mapM_cons, ih, toPython]
          cases e.toPython <;> rfl

def Part.toTypeScript : Part → Except Error String
  | .chars s => .ok (Text.Template.encode s)
  | .value e => do
    let c ← e.toTypeScript
    return "$\x7b" ++ c.text ++ "\x7d"

theorem Part.toTypeScriptAll_eq_mapM (ps : List Part) :
    toTypeScriptAll ps = ps.mapM toTypeScript := by
  induction ps with
  | nil => rfl
  | cons p ps ih =>
      cases p with
      | chars s => rw [toTypeScriptAll, List.mapM_cons, ih]; rfl
      | value e =>
          rw [toTypeScriptAll, List.mapM_cons, ih, toTypeScript]
          cases e.toTypeScript <;> rfl

def Part.toPhp : Part → Except Error String
  | .chars s => .ok (Text.SingleQuoted.encode s)
  | .value e => do
    let c ← e.toPhp
    return c.operand

theorem Part.toPhpAll_eq_mapM (ps : List Part) : toPhpAll ps = ps.mapM toPhp := by
  induction ps with
  | nil => rfl
  | cons p ps ih =>
      cases p with
      | chars s => rw [toPhpAll, List.mapM_cons, ih]; rfl
      | value e =>
          rw [toPhpAll, List.mapM_cons, ih, toPhp]
          cases e.toPhp <;> rfl

end Polyglot
