import Polyglot.Expr.Php
import Polyglot.Stmt.Basic
import Polyglot.Stmt.Braced
import Polyglot.Stmt.Comment

/-!
# Statements in PHP

The lines of a statement as a layout, which is what `Stmt.writePhp` puts into a buffer. Declared
types stand in comments, and in signatures as far as PHP can express them. Overloads, named parameters, asynchronous functions, declarations without a
value, pairs that may be left out and properties of interfaces cannot be written.
-/

set_option autoImplicit false

namespace Polyglot

/-- The PHP text of an expression that may be absent, behind a separator. -/
def Expr.phpSuffix (separator : String) : Option Expr → Except Error String
  | none => .ok ""
  | some e => do
    let text ← e.phpText
    return separator ++ text

def Report.toPhp : Report → Except Error String
  | .text s => .ok (Text.SingleQuoted.encode s)
  | .value e => e.phpText

def Assignment.toPhp : Assignment → Except Error (List Layout)
  | .assign target value => do
    let t ← target.phpText
    let v ← value.phpText
    return [.line (t ++ " = " ++ v ++ ";")]
  | .declare _ _ none => .error (.notSupported .declarationWithoutValue .php)
  | .declare name none (some value) => do
    let v ← value.phpText
    return [.line ("$" ++ name ++ " = " ++ v ++ ";")]
  | .declare name (some ty) (some value) => do
    let comment ← ty.phpVarComment
    let v ← value.phpText
    return [.line comment, .line ("$" ++ name ++ " = " ++ v ++ ";")]

/-- A pair of a dict. -/
def BuilderEntry.phpPair (e : BuilderEntry) : Except Error String := do
  let v ← e.value.phpText
  return Text.SingleQuoted.encode e.key ++ " => " ++ v

def DictBuilder.toPhp (b : DictBuilder) : Except Error (List Layout) := do
  if !b.guarded.isEmpty then
    throw (.notSupported .omittableEntries .php)
  let comment ← b.ty.phpVarComment
  let pairs ← b.entries.mapM BuilderEntry.phpPair
  return [.line comment, .line ("$" ++ b.name ++ " = [" ++ ", ".intercalate pairs ++ "];")]

def Interface.toPhp (i : Interface) : Except Error (List Layout) :=
  if i.properties.isEmpty then .ok [.line ("interface " ++ i.name ++ " \x7b"), .line "\x7d"]
  else .error (.notSupported .interfaceProperties .php)

def Plain.toPhp : Plain → Except Error (List Layout)
  | .blank => .ok [.blank]
  | .comment text => .ok (Layout.marked "// " text)
  | .expr e => do
    let c ← e.phpText
    return [.line (c ++ ";")]
  | .snippet codes =>
    match codes.php with
    | .missing => .error (.missing .stmt .php)
    | .omitted => .ok []
    | .code text => .ok [.line text]
  | .raise r => do
    let m ← r.report.toPhp
    return [.line ("throw new " ++ r.classFor .php ++ "(" ++ m ++ ");")]
  | .ret .omit => .ok [.line "return;"]
  | .ret value => do
    let v ← value.phpText
    return [.line ("return " ++ v ++ ";")]
  | .assign a => a.toPhp
  | .append list value => do
    let l ← list.toPhp
    let v ← value.phpText
    return [.line (l.base ++ "[] = " ++ v ++ ";")]
  | .build b => b.toPhp
  | .interface i => i.toPhp

def Plain.toPhpAll (ps : List Plain) : Except Error (List Layout) := do
  let ls ← ps.mapM Plain.toPhp
  return ls.flatten

/-- A parameter in PHP, with its strict type if there is one. -/
def Param.toPhp (p : Param) : Except Error String := do
  let ty ← p.ty.toPhp
  let default ← Expr.phpSuffix " = " p.default
  let typed := match ty.strict with
    | some strict => strict ++ " "
    | none => ""
  return typed ++ "$" ++ p.name ++ default

/-- Parameters on lines of their own, with commas between them. -/
def Layout.phpParams : List String → List Layout
  | [] => []
  | [last] => [.line last]
  | p :: ps => .line (p ++ ",") :: phpParams ps

namespace Signature

/-- Asynchronous functions, overloads and named parameters are refused. -/
def checkPhp (s : Signature) : Except Error Unit :=
  if s.isAsync then .error (.notSupported .asyncFunction .php)
  else if !s.overloads.isEmpty then .error (.notSupported .overloads .php)
  else if !s.keyword.isEmpty then .error (.notSupported .namedArguments .php)
  else .ok ()

/-- The words in front of the name of a function. -/
def phpModifiers (s : Signature) : List String :=
  (if s.isAbstract then ["abstract"] else []) ++ (if s.isStatic then ["static"] else []) ++
    (if s.isMethod then ["public"] else []) ++ ["function"]

/-- The strict type of the result behind the parameters, if there is one. -/
def phpResult (s : Signature) : Except Error String :=
  if s.isConstructor then .ok ""
  else
    match s.result with
    | none => .ok ""
    | some ty => do
      let t ← ty.toPhp
      return match t.strict with
        | some strict => ": " ++ strict
        | none => ""

/-- The lines of a function down to the opening of its body. -/
def phpHead (s : Signature) : Except Error (List Layout) := do
  s.checkPhp
  let name := if s.isConstructor then "__construct" else s.name
  let params ← s.positional.mapM Param.toPhp
  let result ← s.phpResult
  return Layout.docBlock s.docstring ++
    [.line (" ".intercalate s.phpModifiers ++ " " ++ name ++ "("), .nest (Layout.phpParams params),
      .line (")" ++ result ++ (if s.isAbstract then ";" else " \x7b"))]

end Signature

namespace Class

def Constructor.toPhp (k : Constructor) : Except Error (List Layout) := do
  let head ← k.signature.phpHead
  let inner ← Plain.toPhpAll k.body
  return head ++ k.signature.bracedBody inner

/-- The constructor of a class in PHP, if it needs one. -/
def phpConstructor (c : Class) : Except Error (List (List Layout)) := do
  let k ← c.constructor .php
  match k with
  | none => return []
  | some k => do
    let lines ← k.toPhp
    return [lines]

/-- The line above the members of a class. -/
def phpHead (c : Class) : String :=
  (if c.isAbstract then "abstract " else "") ++ "class " ++ c.name ++
    (match c.phpParent with
      | some parent => " extends " ++ parent
      | none => "") ++ " \x7b"

/-- The declaration of a property. -/
def phpProperty (p : Property) : Except Error (List Layout) := do
  let comment ← p.ty.phpVarComment
  let default ← Expr.phpSuffix " = " p.literalDefault?
  return [.line comment, .line ("public $" ++ p.name ++ default ++ ";")]

end Class

mutual

/-- A body in PHP, at the depth of its first statement. -/
def Body.toPhp : Body → Except Error (List Layout)
  | ⟨_, stmts⟩ => Stmt.toPhpAll stmts

def Function.toPhp : Function → Except Error (List Layout)
  | ⟨signature, body⟩ => do
    signature.checkBody body.stmts.isEmpty
    let head ← signature.phpHead
    let inner ← body.toPhp
    return head ++ signature.bracedBody inner

def Function.toPhpAll : List Function → Except Error (List (List Layout))
  | [] => .ok []
  | f :: fs => do
    let here ← f.toPhp
    let rest ← Function.toPhpAll fs
    return here :: rest

/-- The arms of a conditional after the first, without the closing brace. -/
def Branches.toPhp : Branches → Except Error (List Layout)
  | .done => .ok []
  | .otherwise body => do
    let inner ← body.toPhp
    return [.line "\x7d else \x7b", .nest inner]
  | .elseIf test body rest => do
    let t ← test.phpText
    let inner ← body.toPhp
    let others ← rest.toPhp
    return .line ("\x7d elseif (" ++ t ++ ") \x7b") :: .nest inner :: others

/-- The arms of a `try` after its body, without the closing brace. -/
def Handlers.toPhp : Handlers → Except Error (List Layout)
  | .done => .ok []
  | .cleanup body => do
    let inner ← body.toPhp
    return [.line "\x7d finally \x7b", .nest inner]
  | .handler arm body rest => do
    let inner ← body.toPhp
    let others ← rest.toPhp
    let caught := arm.classes.php.getD (Target.exceptionClass .php)
    return .line ("\x7d catch (" ++ caught ++ " $" ++ arm.var.getD "_" ++ ") \x7b") ::
      .nest inner :: others

/-- A statement in PHP. -/
def Stmt.toPhp : Stmt → Except Error (List Layout)
  | .plain p => p.toPhp
  | .conditional test body branches => do
    let t ← test.phpText
    let inner ← body.toPhp
    let others ← branches.toPhp
    return .line ("if (" ++ t ++ ") \x7b") :: .nest inner :: (others ++ [.line "\x7d", .blank])
  | .forEach name iterable body => do
    let i ← iterable.phpText
    let inner ← body.toPhp
    return [.line ("foreach (" ++ i ++ " as $" ++ name ++ ") \x7b"), .nest inner, .line "\x7d",
      .blank]
  | .forEntries key value iterable body => do
    let i ← iterable.phpText
    let inner ← body.toPhp
    let bound := match key with
      | some key => "$" ++ key ++ " => $" ++ value
      | none => "$" ++ value
    return [.line ("foreach (" ++ i ++ " as " ++ bound ++ ") \x7b"), .nest inner, .line "\x7d",
      .blank]
  | .attempt body handlers => do
    handlers.check
    let inner ← body.toPhp
    let others ← handlers.toPhp
    return .line "try \x7b" :: .nest inner :: (others ++ [.line "\x7d"])
  | .function f => f.toPhp
  | .classDef c methods => do
    let properties ← c.properties.mapM Class.phpProperty
    let constructor ← c.phpConstructor
    let ms ← Function.toPhpAll methods
    let members := Layout.spaced (!c.properties.isEmpty) (constructor ++ ms)
    let remarks := c.remarks.map fun r => .line ("// " ++ r)
    return Layout.docBlock c.docstring ++
      [.line c.phpHead, .nest (properties.flatten ++ members ++ remarks), .line "\x7d"]
  | .block body => body.toPhp

def Stmt.toPhpAll : List Stmt → Except Error (List Layout)
  | [] => .ok []
  | s :: ss => do
    let here ← s.toPhp
    let rest ← Stmt.toPhpAll ss
    return here ++ rest

end

end Polyglot
