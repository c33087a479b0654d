import Polyglot.Stmt.TypeScript
import Polyglot.Writer.Braced

/-!
# Writing statements in TypeScript

Every statement is put into the buffer as it is met. The handlers of a `try` are checked before
anything of it is written, but for the variable that tests need, which is looked for when the
`catch` is opened.
-/

set_option autoImplicit false

namespace Polyglot

open WriteM

def Assignment.writeTypeScript : Assignment → WriteM Unit
  | .assign target value => do
    line0 ((← target.typeScriptText) ++ " = " ++ (← value.typeScriptText) ++ ";")
  | .declare name ty value => do
    line0 ("let " ++ name ++ (← Ty.typeScriptSuffix ": " ty) ++
      (← Expr.typeScriptSuffix " = " value) ++ ";")

/-- The construction of a dict: the pairs that are always there, and then each of the others behind
a test. -/
def DictBuilder.writeTypeScript (b : DictBuilder) : WriteM Unit := do
  let pairs ← (b.fixed.mapM BuilderEntry.typeScriptPair : Except Error (List String))
  line0 ("let " ++ b.name ++ ": " ++ (← b.ty.typeScriptText) ++ " = \x7b" ++
    ", ".intercalate pairs ++ "\x7d;")
  b.guarded.forM fun e => do
    line0 ("if (" ++ (← (Expr.supplied e.value).typeScriptText) ++ ") \x7b")
    line1 (b.name ++ "[" ++ Text.Quoted.encode e.key ++ "] = " ++ (← e.value.typeScriptText) ++ ";")
    line0 "\x7d"

def Interface.writeTypeScript (i : Interface) : WriteM Unit := do
  line0 ((if i.isExported then "export " else "") ++ "interface " ++ i.name ++ " \x7b")
  i.properties.forM fun p => do line1 (p.1 ++ ": " ++ (← p.2.typeScriptText) ++ ";")
  line0 "\x7d"

def Plain.writeTypeScript : Plain → WriteM Unit
  | .blank => blankLine
  | .comment text => marked "// " text
  | .expr e => do line0 ((← e.typeScriptText) ++ ";")
  | .snippet codes =>
    match codes.typescript with
    | .missing => throw (.missing .stmt .typescript)
    | .omitted => return
    | .code text => line0 text
  | .raise r => do
    line0 ("throw new " ++ r.classFor .typescript ++ "(" ++ (← r.report.toTypeScript) ++ ");")
  | .ret .omit => line0 "return;"
  | .ret value => do line0 ("return " ++ (← value.typeScriptText) ++ ";")
  | .assign a => a.writeTypeScript
  | .append list value => do
    line0 ((← list.toTypeScript).base ++ ".push(" ++ (← value.typeScriptText) ++ ");")
  | .build b => b.writeTypeScript
  | .interface i => i.writeTypeScript

/-- The text of a parameter. -/
def Param.typeScriptText (p : Param) : Except Error String := do
  return p.name ++ ": " ++ (← p.ty.typeScriptText) ++ (← Expr.typeScriptSuffix " = " p.default)

/-- A function whose statements a block writes. -/
def Signature.writeTypeScript (s : Signature) (isEmpty : Bool) (block : WriteM Unit) :
    WriteM Unit := do
  s.checkBody isEmpty
  s.checkTypeScript
  docBlock s.docstring
  s.typeScriptDecorators.forM fun d => line0 ("@" ++ d)
  let name := if s.isConstructor then "constructor" else s.name
  line0 (" ".intercalate s.typeScriptModifiers ++ " " ++ name ++ "(")
  s.positional.forM fun p => do line1 ((← p.typeScriptText) ++ ",")
  s.writeBraced (← s.typeScriptResult) block

namespace Class

/-- The declaration of a property. -/
def writeTypeScriptProperty (p : Property) : WriteM Unit := do
  when p.observable do
    blankLine
    line0 "@observable"
  line0 ((if p.readonly then "readonly " else "public ") ++ p.name ++ ": " ++
    (← p.ty.typeScriptText) ++ (← Expr.typeScriptSuffix " = " p.literalDefault?) ++ ";")

def Constructor.writeTypeScript (k : Constructor) : WriteM Unit :=
  k.signature.writeTypeScript k.body.isEmpty (k.body.forM Plain.writeTypeScript)

end Class

/-- The `catch` clause of a `try`, around the statements of the handler that catches everything or
around the tests of a variable. -/
def CatchClause.writeTypeScript (last : WriteM Unit) (tests : String → WriteM Unit) :
    CatchClause → WriteM Unit
  | .absent => return
  | .single none => do
    line0 "\x7d catch \x7b"
    nested last
  | .single (some var) => do
    line0 ("\x7d catch (" ++ var ++ ") \x7b")
    nested last
  | .chain var _ => do
    line0 ("\x7d catch (" ++ var ++ ") \x7b")
    nested (tests var)

mutual

def Body.writeTypeScript : Body → WriteM Unit
  | ⟨_, stmts⟩ => Stmt.writeTypeScriptAll stmts

def Function.writeTypeScript : Function → WriteM Unit
  | ⟨signature, body⟩ => signature.writeTypeScript body.stmts.isEmpty body.writeTypeScript

/-- The methods of a class, each behind an empty line if there is a member before it. -/
def Function.writeTypeScriptAll : Bool → List Function → WriteM Unit
  | _, [] => return
  | needBlank, f :: fs => do
    when needBlank blankLine
    f.writeTypeScript
    Function.writeTypeScriptAll true fs

/-- The arms of a conditional after the first, without the closing brace. -/
def Branches.writeTypeScript : Branches → WriteM Unit
  | .done => return
  | .otherwise body => do
    line0 "\x7d else \x7b"
    nested body.writeTypeScript
  | .elseIf test body rest => do
    line0 ("\x7d else if (" ++ (← test.typeScriptText) ++ ") \x7b")
    nested body.writeTypeScript
    rest.writeTypeScript

/-- The statements of the handler that catches everything. -/
def Handlers.writeTypeScriptLast : Handlers → WriteM Unit
  | .done | .cleanup _ => return
  | .handler arm body rest =>
    match arm.classes.typescript with
    | some _ => rest.writeTypeScriptLast
    | none => body.writeTypeScript

/-- The handlers as a chain of tests of the variable. What no class has taken goes to the handler
that catches everything, or is thrown again. -/
def Handlers.writeTypeScriptTests (var : String) : String → Handlers → WriteM Unit
  | _, .done | _, .cleanup _ => do
    line0 "\x7d"
    line0 ("throw " ++ var ++ ";")
  | keyword, .handler arm body rest =>
    match arm.classes.typescript with
    | some name => do
      line0 (keyword ++ "if (" ++ var ++ " instanceof " ++ name ++ ") \x7b")
      nested body.writeTypeScript
      rest.writeTypeScriptTests var "\x7d else "
    | none => do
      line0 "\x7d else \x7b"
      nested body.writeTypeScript
      line0 "\x7d"

/-- The statements that run in any case, without the closing brace. -/
def Handlers.writeTypeScriptCleanup : Handlers → WriteM Unit
  | .done => return
  | .cleanup body => do
    line0 "\x7d finally \x7b"
    nested body.writeTypeScript
  | .handler _ _ rest => rest.writeTypeScriptCleanup

def Stmt.writeTypeScript : Stmt → WriteM Unit
  | .plain p => p.writeTypeScript
  | .conditional test body branches => do
    line0 ("if (" ++ (← test.typeScriptText) ++ ") \x7b")
    nested body.writeTypeScript
    branches.writeTypeScript
    line0 "\x7d"
    blankLine
  | .forEach name iterable body => do
    line0 ("for (let " ++ name ++ " of " ++ (← iterable.typeScriptText) ++ ") \x7b")
    nested body.writeTypeScript
    line0 "\x7d"
    blankLine
  | .forEntries key value iterable body => do
    let i ← iterable.toTypeScript
    let bound := match key with
      | some key => "[" ++ key ++ ", " ++ value ++ "]"
      | none => value
    let source := match key, iterable.isMap with
      | some _, true => i.text
      | none, true => i.base ++ ".values()"
      | some _, false => "Object.entries(" ++ i.text ++ ")"
      | none, false => "Object.values(" ++ i.text ++ ")"
    line0 ("for (let " ++ bound ++ " of " ++ source ++ ") \x7b")
    nested body.writeTypeScript
    line0 "\x7d"
    blankLine
  | .attempt body handlers => do
    handlers.check
    let dispatch ← Dispatch.ofCatches handlers.catches
    line0 "try \x7b"
    nested body.writeTypeScript
    let clause ← dispatch.clause
    clause.writeTypeScript handlers.writeTypeScriptLast
      fun var => handlers.writeTypeScriptTests var ""
    handlers.writeTypeScriptCleanup
    line0 "\x7d"
  | .function f => f.writeTypeScript
  | .classDef c methods =>
    c.writeBraced c.typeScriptHead
      (c.writeBracedMembers .typescript Class.writeTypeScriptProperty
        Class.Constructor.writeTypeScript)
      fun needBlank => Function.writeTypeScriptAll needBlank methods
  | .block body => body.writeTypeScript

def Stmt.writeTypeScriptAll : List Stmt → WriteM Unit
  | [] => return
  | s :: ss => do
    s.writeTypeScript
    Stmt.writeTypeScriptAll ss

end

end Polyglot
