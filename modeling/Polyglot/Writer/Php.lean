import Polyglot.Stmt.Php
import Polyglot.Writer.Braced

/-!
# Writing statements in PHP

Every statement is put into the buffer as it is met. What PHP cannot express is refused where it is
met.
-/

set_option autoImplicit false

namespace Polyglot

open WriteM

def Assignment.writePhp : Assignment → WriteM Unit
  | .assign target value => do
    line0 ((← target.phpText) ++ " = " ++ (← value.phpText) ++ ";")
  | .declare _ _ none => throw (.notSupported .declarationWithoutValue .php)
  | .declare name none (some value) => do
    line0 ("$" ++ name ++ " = " ++ (← value.phpText) ++ ";")
  | .declare name (some ty) (some value) => do
    line0 (← ty.phpVarComment)
    line0 ("$" ++ name ++ " = " ++ (← value.phpText) ++ ";")

def DictBuilder.writePhp (b : DictBuilder) : WriteM Unit := do
  if !b.guarded.isEmpty then
    throw (.notSupported .omittableEntries .php)
  line0 (← b.ty.phpVarComment)
  let pairs ← (b.entries.mapM BuilderEntry.phpPair : Except Error (List String))
  line0 ("$" ++ b.name ++ " = [" ++ ", ".intercalate pairs ++ "];")

def Interface.writePhp (i : Interface) : WriteM Unit :=
  if i.properties.isEmpty then do
    line0 ("interface " ++ i.name ++ " \x7b")
    line0 "\x7d"
  else throw (.notSupported .interfaceProperties .php)

def Plain.writePhp : Plain → WriteM Unit
  | .blank => blankLine
  | .comment text => marked "// " text
  | .expr e => do line0 ((← e.phpText) ++ ";")
  | .snippet codes =>
    match codes.php with
    | .missing => throw (.missing .stmt .php)
    | .omitted => return
    | .code text => line0 text
  | .raise r => do
    line0 ("throw new " ++ r.classFor .php ++ "(" ++ (← r.report.toPhp) ++ ");")
  | .ret .omit => line0 "return;"
  | .ret value => do line0 ("return " ++ (← value.phpText) ++ ";")
  | .assign a => a.writePhp
  | .append list value => do
    line0 ((← list.toPhp).base ++ "[] = " ++ (← value.phpText) ++ ";")
  | .build b => b.writePhp
  | .interface i => i.writePhp

/-- Parameters on lines of their own, with commas between them. -/
def Param.writePhpAll : List Param → WriteM Unit
  | [] => return
  | [last] => do line1 (← last.toPhp)
  | p :: ps => do
    line1 ((← p.toPhp) ++ ",")
    Param.writePhpAll ps

/-- A function whose statements a block writes. -/
def Signature.writePhp (s : Signature) (isEmpty : Bool) (block : WriteM Unit) : WriteM Unit := do
  s.checkBody isEmpty
  s.checkPhp
  docBlock s.docstring
  let name := if s.isConstructor then "__construct" else s.name
  line0 (" ".intercalate s.phpModifiers ++ " " ++ name ++ "(")
  Param.writePhpAll s.positional
  s.writeBraced (← s.phpResult) block

namespace Class

/-- The declaration of a property. -/
def writePhpProperty (p : Property) : WriteM Unit := do
  line0 (← p.ty.phpVarComment)
  line0 ("public $" ++ p.name ++ (← Expr.phpSuffix " = " p.literalDefault?) ++ ";")

def Constructor.writePhp (k : Constructor) : WriteM Unit :=
  k.signature.writePhp k.body.isEmpty (k.body.forM Plain.writePhp)

end Class

mutual

def Body.writePhp : Body → WriteM Unit
  | ⟨_, stmts⟩ => Stmt.writePhpAll stmts

def Function.writePhp : Function → WriteM Unit
  | ⟨signature, body⟩ => signature.writePhp body.stmts.isEmpty body.writePhp

/-- The methods of a class, each behind an empty line if there is a member before it. -/
def Function.writePhpAll : Bool → List Function → WriteM Unit
  | _, [] => return
  | needBlank, f :: fs => do
    when needBlank blankLine
    f.writePhp
    Function.writePhpAll true fs

/-- The arms of a conditional after the first, without the closing brace. -/
def Branches.writePhp : Branches → WriteM Unit
  | .done => return
  | .otherwise body => do
    line0 "\x7d else \x7b"
    nested body.writePhp
  | .elseIf test body rest => do
    line0 ("\x7d elseif (" ++ (← test.phpText) ++ ") \x7b")
    nested body.writePhp
    rest.writePhp

/-- The arms of a `try` after its body, without the closing brace. -/
def Handlers.writePhp : Handlers → WriteM Unit
  | .done => return
  | .cleanup body => do
    line0 "\x7d finally \x7b"
    nested body.writePhp
  | .handler arm body rest => do
    let caught := arm.classes.php.getD (Target.exceptionClass .php)
    line0 ("\x7d catch (" ++ caught ++ " $" ++ arm.var.getD "_" ++ ") \x7b")
    nested body.writePhp
    rest.writePhp

def Stmt.writePhp : Stmt → WriteM Unit
  | .plain p => p.writePhp
  | .conditional test body branches => do
    line0 ("if (" ++ (← test.phpText) ++ ") \x7b")
    nested body.writePhp
    branches.writePhp
    line0 "\x7d"
    blankLine
  | .forEach name iterable body => do
    line0 ("foreach (" ++ (← iterable.phpText) ++ " as $" ++ name ++ ") \x7b")
    nested body.writePhp
    line0 "\x7d"
    blankLine
  | .forEntries key value iterable body => do
    let i ← iterable.phpText
    let bound := match key with
      | some key => "$" ++ key ++ " => $" ++ value
      | none => "$" ++ value
    line0 ("foreach (" ++ i ++ " as " ++ bound ++ ") \x7b")
    nested body.writePhp
    line0 "\x7d"
    blankLine
  | .attempt body handlers => do
    handlers.check
    line0 "try \x7b"
    nested body.writePhp
    handlers.writePhp
    line0 "\x7d"
  | .function f => f.writePhp
  | .classDef c methods =>
    c.writeBraced c.phpHead
      (c.writeBracedMembers .php Class.writePhpProperty Class.Constructor.writePhp)
      fun needBlank => Function.writePhpAll needBlank methods
  | .block body => body.writePhp

def Stmt.writePhpAll : List Stmt → WriteM Unit
  | [] => return
  | s :: ss => do
    s.writePhp
    Stmt.writePhpAll ss

end

end Polyglot
