import Polyglot.Expr.TypeScript
import Polyglot.Stmt.Basic
import Polyglot.Stmt.Braced
import Polyglot.Stmt.Comment

/-!
# Statements in TypeScript

The lines of a statement as a layout, which is what `Stmt.writeTypeScript` puts into a buffer.
TypeScript has one untyped `catch`, so handlers for classes become a chain of tests inside it;
`Dispatch` says which chain it is. Overloads and named parameters cannot be written.
-/

set_option autoImplicit false

namespace Polyglot

/-- The TypeScript text of an expression that may be absent, behind a separator. -/
def Expr.typeScriptSuffix (separator : String) : Option Expr → Except Error String
  | none => .ok ""
  | some e => do
    let text ← e.typeScriptText
    return separator ++ text

/-- The TypeScript text of a type that may be absent, behind a separator. -/
def Ty.typeScriptSuffix (separator : String) : Option Ty → Except Error String
  | none => .ok ""
  | some ty => do
    let text ← ty.typeScriptText
    return separator ++ text

def Report.toTypeScript : Report → Except Error String
  | .text s => .ok (Text.Quoted.encode s)
  | .value e => e.typeScriptText

def Assignment.toTypeScript : Assignment → Except Error (List Layout)
  | .assign target value => do
    let t ← target.typeScriptText
    let v ← value.typeScriptText
    return [.line (t ++ " = " ++ v ++ ";")]
  | .declare name ty value => do
    let a ← Ty.typeScriptSuffix ": " ty
    let v ← Expr.typeScriptSuffix " = " value
    return [.line ("let " ++ name ++ a ++ v ++ ";")]

/-- A pair that is always in the dict. -/
def BuilderEntry.typeScriptPair (e : BuilderEntry) : Except Error String := do
  let v ← e.value.typeScriptText
  return Text.Quoted.encode e.key ++ ": " ++ v

/-- A pair that is put into the dict if its value was supplied. -/
def BuilderEntry.typeScriptGuard (name : String) (e : BuilderEntry) :
    Except Error (List Layout) := do
  let test ← (Expr.supplied e.value).typeScriptText
  let v ← e.value.typeScriptText
  return [.line ("if (" ++ test ++ ") \x7b"),
    .nest [.line (name ++ "[" ++ Text.Quoted.encode e.key ++ "] = " ++ v ++ ";")],
    .line "\x7d"]

def DictBuilder.toTypeScript (b : DictBuilder) : Except Error (List Layout) := do
  let pairs ← b.fixed.mapM BuilderEntry.typeScriptPair
  let ty ← b.ty.typeScriptText
  let guards ← b.guarded.mapM (BuilderEntry.typeScriptGuard b.name)
  return .line ("let " ++ b.name ++ ": " ++ ty ++ " = \x7b" ++ ", ".intercalate pairs ++ "\x7d;") ::
    guards.flatten

def Interface.toTypeScript (i : Interface) : Except Error (List Layout) := do
  let properties ← i.properties.mapM fun p => do
    let ty ← p.2.typeScriptText
    return .line (p.1 ++ ": " ++ ty ++ ";")
  return [.line ((if i.isExported then "export " else "") ++ "interface " ++ i.name ++ " \x7b"),
    .nest properties, .line "\x7d"]

def Plain.toTypeScript : Plain → Except Error (List Layout)
  | .blank => .ok [.blank]
  | .comment text => .ok (Layout.marked "// " text)
  | .expr e => do
    let c ← e.typeScriptText
    return [.line (c ++ ";")]
  | .snippet codes =>
    match codes.typescript with
    | .missing => .error (.missing .stmt .typescript)
    | .omitted => .ok []
    | .code text => .ok [.line text]
  | .raise r => do
    let m ← r.report.toTypeScript
    return [.line ("throw new " ++ r.classFor .typescript ++ "(" ++ m ++ ");")]
  | .ret .omit => .ok [.line "return;"]
  | .ret value => do
    let v ← value.typeScriptText
    return [.line ("return " ++ v ++ ";")]
  | .assign a => a.toTypeScript
  | .append list value => do
    let l ← list.toTypeScript
    let v ← value.typeScriptText
    return [.line (l.base ++ ".push(" ++ v ++ ");")]
  | .build b => b.toTypeScript
  | .interface i => i.toTypeScript

def Plain.toTypeScriptAll (ps : List Plain) : Except Error (List Layout) := do
  let ls ← ps.mapM Plain.toTypeScript
  return ls.flatten

/-- A parameter in TypeScript, with the comma behind it. -/
def Param.toTypeScript (p : Param) : Except Error Layout := do
  let ty ← p.ty.typeScriptText
  let default ← Expr.typeScriptSuffix " = " p.default
  return .line (p.name ++ ": " ++ ty ++ default ++ ",")

namespace Signature

/-- Overloads and named parameters are refused. -/
def checkTypeScript (s : Signature) : Except Error Unit :=
  if !s.overloads.isEmpty then .error (.notSupported .overloads .typescript)
  else if !s.keyword.isEmpty then .error (.notSupported .namedArguments .typescript)
  else if s.isAsync && s.isConstructor then .error (.invalid .asyncConstructor)
  else .ok ()

/-- The words in front of the name of a function: a method without other modifiers is public. -/
def typeScriptModifiers (s : Signature) : List String :=
  let own := (if s.isAsync then ["async"] else []) ++ (if s.isAbstract then ["abstract"] else []) ++
    (if s.isStatic then ["static"] else [])
  if !s.isMethod then own ++ ["function"] else if own.isEmpty then ["public"] else own

/-- The type of the result behind the parameters; a constructor has none. -/
def typeScriptResult (s : Signature) : Except Error String :=
  if s.isConstructor then .ok ""
  else do
    let result ← match s.result with
      | none => pure "void"
      | some ty => ty.typeScriptText
    return ": " ++ (if s.isAsync then "Promise<" ++ result ++ ">" else result)

/-- The lines of a function down to the opening of its body. -/
def typeScriptHead (s : Signature) : Except Error (List Layout) := do
  s.checkTypeScript
  let name := if s.isConstructor then "constructor" else s.name
  let params ← s.positional.mapM Param.toTypeScript
  let result ← s.typeScriptResult
  return Layout.docBlock s.docstring ++ s.typeScriptDecorators.map (fun d => .line ("@" ++ d)) ++
    [.line (" ".intercalate s.typeScriptModifiers ++ " " ++ name ++ "("), .nest params,
      .line (")" ++ result ++ (if s.isAbstract then ";" else " \x7b"))]

end Signature

namespace Class

def Constructor.toTypeScript (k : Constructor) : Except Error (List Layout) := do
  let head ← k.signature.typeScriptHead
  let inner ← Plain.toTypeScriptAll k.body
  return head ++ k.signature.bracedBody inner

/-- The constructor of a class in TypeScript, if it needs one. -/
def typeScriptConstructor (c : Class) : Except Error (List (List Layout)) := do
  let k ← c.constructor .typescript
  match k with
  | none => return []
  | some k => do
    let lines ← k.toTypeScript
    return [lines]

/-- The line above the members of a class. -/
def typeScriptHead (c : Class) : String :=
  (if c.isExported then "export " else "") ++ (if c.isAbstract then "abstract " else "") ++
    "class " ++ c.name ++
    (match c.typeScriptParent with
      | some parent => " extends " ++ parent
      | none => "") ++ " \x7b"

/-- The declaration of a property. -/
def typeScriptProperty (p : Property) : Except Error (List Layout) := do
  let ty ← p.ty.typeScriptText
  let default ← Expr.typeScriptSuffix " = " p.literalDefault?
  return (if p.observable then [.blank, .line "@observable"] else []) ++
    [.line ((if p.readonly then "readonly " else "public ") ++ p.name ++ ": " ++ ty ++ default ++
      ";")]

end Class

/-- What the handlers of a `try` amount to for a single untyped `catch`: the variable that some
handler binds, the classes that are tested, in order, and whether the last handler takes what no
class has taken. -/
structure Dispatch where
  var : Option String
  classes : List String
  catchesAll : Bool
  deriving DecidableEq, Repr

namespace Dispatch

/-- Takes in one more handler: handlers bind one variable, and none follows the one that catches
everything. -/
def add (d : Dispatch) (arm : Catch) : Except Error Dispatch := do
  let var ← match d.var, arm.var with
    | some x, some y => if x = y then pure (some x) else throw (.invalid .catchVariables)
    | some x, none => pure (some x)
    | none, var => pure var
  if d.catchesAll then
    throw (.invalid .catchAllNotLast)
  match arm.classes.typescript with
  | some name => return ⟨var, d.classes ++ [name], false⟩
  | none => return ⟨var, d.classes, true⟩

/-- What handlers amount to, from the first to the last. -/
def ofCatches (arms : List Catch) : Except Error Dispatch := arms.foldlM add ⟨none, [], false⟩

end Dispatch

/-- The `catch` clause of a `try`. A chain tests the variable against classes in order; what no
class has taken goes to a last handler, or is thrown again if there is none. -/
inductive CatchClause where
  | absent
  | single (var : Option String)
  | chain (var : String) (classes : List String)
  deriving DecidableEq, Repr

/-- The clause for handlers; tests need a variable. -/
def Dispatch.clause (d : Dispatch) : Except Error CatchClause :=
  if d.classes.isEmpty then .ok (if d.catchesAll then .single d.var else .absent)
  else
    match d.var with
    | none => .error (.invalid .catchWithoutVariable)
    | some var => .ok (.chain var d.classes)

namespace CatchClause

/-- The tests against classes in order, and behind them what happens when none succeeds. -/
def tests (var keyword : String) : List String → List (List Layout) → List Layout
  | name :: names, body :: bodies =>
    .line (keyword ++ "if (" ++ var ++ " instanceof " ++ name ++ ") \x7b") :: .nest body ::
      tests var "\x7d else " names bodies
  | _, last :: _ => [.line "\x7d else \x7b", .nest last, .line "\x7d"]
  | _, [] => [.line "\x7d", .line ("throw " ++ var ++ ";")]

/-- The clause with the written bodies of the handlers. -/
def toTypeScript : CatchClause → List (List Layout) → List Layout
  | .absent, _ => []
  | .single none, bodies => [.line "\x7d catch \x7b", .nest bodies.flatten]
  | .single (some var), bodies => [.line ("\x7d catch (" ++ var ++ ") \x7b"), .nest bodies.flatten]
  | .chain var classes, bodies =>
    [.line ("\x7d catch (" ++ var ++ ") \x7b"), .nest (tests var "" classes bodies)]

end CatchClause

mutual

/-- A body in TypeScript, at the depth of its first statement. -/
def Body.toTypeScript : Body → Except Error (List Layout)
  | ⟨_, stmts⟩ => Stmt.toTypeScriptAll stmts

def Function.toTypeScript : Function → Except Error (List Layout)
  | ⟨signature, body⟩ => do
    signature.checkBody body.stmts.isEmpty
    let head ← signature.typeScriptHead
    let inner ← body.toTypeScript
    return head ++ signature.bracedBody inner

def Function.toTypeScriptAll : List Function → Except Error (List (List Layout))
  | [] => .ok []
  | f :: fs => do
    let here ← f.toTypeScript
    let rest ← Function.toTypeScriptAll fs
    return here :: rest

/-- The arms of a conditional after the first, without the closing brace. -/
def Branches.toTypeScript : Branches → Except Error (List Layout)
  | .done => .ok []
  | .otherwise body => do
    let inner ← body.toTypeScript
    return [.line "\x7d else \x7b", .nest inner]
  | .elseIf test body rest => do
    let t ← test.typeScriptText
    let inner ← body.toTypeScript
    let others ← rest.toTypeScript
    return .line ("\x7d else if (" ++ t ++ ") \x7b") :: .nest inner :: others

/-- The bodies of the handlers of a `try`, and what runs in any case. -/
def Handlers.toTypeScript : Handlers → Except Error (List (List Layout) × List Layout)
  | .done => .ok ([], [])
  | .cleanup body => do
    let inner ← body.toTypeScript
    return ([], [.line "\x7d finally \x7b", .nest inner])
  | .handler _ body rest => do
    let inner ← body.toTypeScript
    let others ← rest.toTypeScript
    return (inner :: others.1, others.2)

/-- A statement in TypeScript. -/
def Stmt.toTypeScript : Stmt → Except Error (List Layout)
  | .plain p => p.toTypeScript
  | .conditional test body branches => do
    let t ← test.typeScriptText
    let inner ← body.toTypeScript
    let others ← branches.toTypeScript
    return .line ("if (" ++ t ++ ") \x7b") :: .nest inner :: (others ++ [.line "\x7d", .blank])
  | .forEach name iterable body => do
    let i ← iterable.typeScriptText
    let inner ← body.toTypeScript
    return [.line ("for (let " ++ name ++ " of " ++ i ++ ") \x7b"), .nest inner, .line "\x7d",
      .blank]
  | .forEntries key value iterable body => do
    let i ← iterable.toTypeScript
    let inner ← body.toTypeScript
    let bound := match key with
      | some key => "[" ++ key ++ ", " ++ value ++ "]"
      | none => value
    let source := match key, iterable.isMap with
      | some _, true => i.text
      | none, true => i.base ++ ".values()"
      | some _, false => "Object.entries(" ++ i.text ++ ")"
      | none, false => "Object.values(" ++ i.text ++ ")"
    return [.line ("for (let " ++ bound ++ " of " ++ source ++ ") \x7b"), .nest inner, .line "\x7d",
      .blank]
  | .attempt body handlers => do
    handlers.check
    let dispatch ← Dispatch.ofCatches handlers.catches
    let inner ← body.toTypeScript
    let clause ← dispatch.clause
    let others ← handlers.toTypeScript
    return .line "try \x7b" :: .nest inner ::
      (clause.toTypeScript others.1 ++ others.2 ++ [.line "\x7d"])
  | .function f => f.toTypeScript
  | .classDef c methods => do
    let properties ← c.properties.mapM Class.typeScriptProperty
    let constructor ← c.typeScriptConstructor
    let ms ← Function.toTypeScriptAll methods
    let members := Layout.spaced (!c.properties.isEmpty) (constructor ++ ms)
    let remarks := c.remarks.map fun r => .line ("// " ++ r)
    return Layout.docBlock c.docstring ++
      [.line c.typeScriptHead, .nest (properties.flatten ++ members ++ remarks), .line "\x7d"]
  | .block body => body.toTypeScript

def Stmt.toTypeScriptAll : List Stmt → Except Error (List Layout)
  | [] => .ok []
  | s :: ss => do
    let here ← s.toTypeScript
    let rest ← Stmt.toTypeScriptAll ss
    return here ++ rest

end

end Polyglot
