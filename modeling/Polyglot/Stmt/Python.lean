import Polyglot.Expr.Python
import Polyglot.Stmt.Basic
import Polyglot.Stmt.Comment

/-!
# Statements in Python

The lines of a statement as a layout, which is what `Stmt.writePython` puts into a buffer. Where
Python needs a statement and there is none stands `pass`; whether there is one is asked of the tree
(`Body.hasCode`), not of the text.
-/

set_option autoImplicit false

namespace Polyglot

/-- The Python text of an expression that may be absent, behind a separator. -/
def Expr.pythonSuffix (separator : String) : Option Expr → Except Error String
  | none => .ok ""
  | some e => do
    let text ← e.pythonText
    return separator ++ text

/-- The Python text of a type that may be absent, behind a separator. -/
def Ty.pythonSuffix (separator : String) : Option Ty → Except Error String
  | none => .ok ""
  | some ty => do
    let text ← ty.pythonText
    return separator ++ text

def Report.toPython : Report → Except Error String
  | .text s => .ok (Text.Quoted.encode s)
  | .value e => e.pythonText

def Assignment.toPython : Assignment → Except Error (List Layout)
  | .assign target value => do
    let t ← target.pythonText
    let v ← value.pythonText
    return [.line (t ++ " = " ++ v)]
  | .declare name ty value => do
    let a ← Ty.pythonSuffix ": " ty
    let v ← Expr.pythonSuffix " = " value
    return [.line (name ++ a ++ v)]

/-- A pair that is always in the dict. -/
def BuilderEntry.pythonPair (e : BuilderEntry) : Except Error String := do
  let v ← e.value.pythonText
  return Text.Quoted.encode e.key ++ ": " ++ v

/-- A pair that is put into the dict if its value was supplied. -/
def BuilderEntry.pythonGuard (name : String) (e : BuilderEntry) : Except Error (List Layout) := do
  let test ← (Expr.supplied e.value).pythonText
  let v ← e.value.pythonText
  return [.line ("if " ++ test ++ ":"),
    .nest [.line (name ++ "[" ++ Text.Quoted.encode e.key ++ "] = " ++ v)]]

def DictBuilder.toPython (b : DictBuilder) : Except Error (List Layout) := do
  let pairs ← b.fixed.mapM BuilderEntry.pythonPair
  let ty ← b.ty.pythonText
  let guards ← b.guarded.mapM (BuilderEntry.pythonGuard b.name)
  return .line (b.name ++ ": " ++ ty ++ " = \x7b" ++ ", ".intercalate pairs ++ "\x7d") ::
    guards.flatten

def Plain.toPython : Plain → Except Error (List Layout)
  | .blank => .ok [.blank]
  | .comment text => .ok (Layout.marked "# " text)
  | .expr e => do
    let c ← e.pythonText
    return [.line c]
  | .snippet codes =>
    match codes.python with
    | .missing => .error (.missing .stmt .python)
    | .omitted => .ok []
    | .code text => .ok [.line text]
  | .raise r => do
    let m ← r.report.toPython
    return [.line ("raise " ++ r.classFor .python ++ "(" ++ m ++ ")")]
  | .ret .omit => .ok [.line "return"]
  | .ret value => do
    let v ← value.pythonText
    return [.line ("return " ++ v)]
  | .assign a => a.toPython
  | .append list value => do
    let l ← list.toPython
    let v ← value.pythonText
    return [.line (l.base ++ ".append(" ++ v ++ ")")]
  | .build b => b.toPython
  | .interface _ => .error (.notSupported .interface .python)

def Plain.toPythonAll (ps : List Plain) : Except Error (List Layout) := do
  let ls ← ps.mapM Plain.toPython
  return ls.flatten

/-- A body one level deeper, with `pass` if nothing in it is code. -/
def Layout.pythonSuite (hasCode : Bool) (inner : List Layout) : Layout :=
  .nest (if hasCode then inner else inner ++ [.line "pass"])

/-- A parameter in Python, with the comma behind it. -/
def Param.toPython (p : Param) : Except Error Layout := do
  let ty ← p.ty.pythonText
  let default ← Expr.pythonSuffix " = " p.default
  return .line (p.name ++ ": " ++ ty ++ default ++ ",")

namespace Signature

/-- The lines above the name of a function. -/
def pythonDecorations (s : Signature) : List Layout :=
  .blank :: (s.pythonDecorators.map (fun d => .line ("@" ++ d)) ++
    (if s.isStatic then [.line "@classmethod"] else []) ++
    (if s.isAbstract then [.line "@abc.abstractmethod"] else []))

/-- The parameter for the object or class of a method. -/
def pythonReceiver (s : Signature) : List Layout :=
  if s.isMethod then [.line (if s.isStatic then "class_," else "self,")] else []

/-- The lines of a function down to the colon. -/
def pythonHead (s : Signature) : Except Error (List Layout) := do
  let name := if s.isConstructor then "__init__" else s.name
  let positional ← s.positional.mapM Param.toPython
  let keyword ← s.keyword.mapM Param.toPython
  let star := if s.keyword.isEmpty then [] else [.line "*,"]
  let result ← match s.result with
    | none => pure "None"
    | some ty => ty.pythonText
  return s.pythonDecorations ++
    [.line ((if s.isAsync then "async def " else "def ") ++ name ++ "("),
      .nest (s.pythonReceiver ++ positional ++ star ++ keyword),
      .line (") -> " ++ result ++ ":")]

/-- What stands below the head of a function. -/
def pythonSuite (s : Signature) (hasCode : Bool) (inner : List Layout) : Layout :=
  .nest (Layout.docString s.docstring ++ inner ++
    (if s.isAbstract then [.line "..."] else if hasCode then [] else [.line "pass"]))

/-- The overloads of a function, each as a function without statements. -/
def pythonOverloads (s : Signature) : Except Error (List Layout) := do
  let stubs ← s.overloads.mapM fun o => do
    let head ← (s.variant o).pythonHead
    return head ++ [(s.variant o).pythonSuite true [.line "..."]]
  return stubs.flatten

end Signature

namespace Class

def Constructor.toPython (k : Constructor) : Except Error (List Layout) := do
  let head ← k.signature.pythonHead
  let inner ← Plain.toPythonAll k.body
  return head ++ [k.signature.pythonSuite (k.body.any Plain.hasCode) inner]

/-- The constructor of a class in Python, if it needs one. -/
def pythonConstructor (c : Class) : Except Error (List Layout) := do
  let k ← c.constructor .python
  match k with
  | none => return []
  | some k => k.toPython

/-- The lines above the body of a class. -/
def pythonHead (c : Class) : List Layout :=
  let bases := c.pythonBases ++ (if c.isAbstract then ["abc.ABC"] else [])
  (if c.isDataclass then [.line "@dataclass"] else []) ++
    [.line ("class " ++ c.name ++
      (if bases.isEmpty then ":" else "(" ++ ", ".intercalate bases ++ "):"))]

/-- The declarations of the properties. -/
def pythonProperties (c : Class) : Except Error (List Layout) :=
  c.properties.mapM fun p => do
    let ty ← p.ty.pythonText
    return .line (p.name ++ ": " ++ ty)

end Class

mutual

/-- A body in Python, at the depth of its first statement. -/
def Body.toPython : Body → Except Error (List Layout)
  | ⟨_, stmts⟩ => Stmt.toPythonAll stmts

/-- A function in Python, below its overloads. -/
def Function.toPython : Function → Except Error (List Layout)
  | ⟨signature, body⟩ => do
    signature.checkBody body.stmts.isEmpty
    let overloads ← signature.pythonOverloads
    let head ← signature.pythonHead
    let inner ← body.toPython
    return overloads ++ head ++ [signature.pythonSuite body.hasCode inner]

def Function.toPythonAll : List Function → Except Error (List (List Layout))
  | [] => .ok []
  | f :: fs => do
    let here ← f.toPython
    let rest ← Function.toPythonAll fs
    return here :: rest

def Branches.toPython : Branches → Except Error (List Layout)
  | .done => .ok []
  | .otherwise body => do
    let inner ← body.toPython
    return [.line "else:", .pythonSuite body.hasCode inner]
  | .elseIf test body rest => do
    let t ← test.pythonText
    let inner ← body.toPython
    let others ← rest.toPython
    return .line ("elif " ++ t ++ ":") :: .pythonSuite body.hasCode inner :: others

def Handlers.toPython : Handlers → Except Error (List Layout)
  | .done => .ok []
  | .cleanup body => do
    let inner ← body.toPython
    return [.line "finally:", .pythonSuite body.hasCode inner]
  | .handler arm body rest => do
    let inner ← body.toPython
    let others ← rest.toPython
    let caught := "except " ++ arm.classes.python.getD (Target.exceptionClass .python)
    let bound := match arm.var with
      | some name => caught ++ " as " ++ name ++ ":"
      | none => caught ++ ":"
    return .line bound :: .pythonSuite body.hasCode inner :: others

/-- A statement in Python. -/
def Stmt.toPython : Stmt → Except Error (List Layout)
  | .plain p => p.toPython
  | .conditional test body branches => do
    let t ← test.pythonText
    let inner ← body.toPython
    let others ← branches.toPython
    return .line ("if " ++ t ++ ":") :: .pythonSuite body.hasCode inner :: (others ++ [.blank])
  | .forEach name iterable body => do
    let i ← iterable.pythonText
    let inner ← body.toPython
    return [.line ("for " ++ name ++ " in " ++ i ++ ":"), .pythonSuite body.hasCode inner, .blank]
  | .forEntries key value iterable body => do
    let i ← iterable.toPython
    let inner ← body.toPython
    let head := match key with
      | some key => "for " ++ key ++ ", " ++ value ++ " in " ++ i.base ++ ".items():"
      | none => "for " ++ value ++ " in " ++ i.base ++ ".values():"
    return [.line head, .pythonSuite body.hasCode inner, .blank]
  | .attempt body handlers => do
    handlers.check
    let inner ← body.toPython
    let others ← handlers.toPython
    return .line "try:" :: .pythonSuite body.hasCode inner :: others
  | .function f => f.toPython
  | .classDef c methods => do
    let properties ← c.pythonProperties
    let constructor ← c.pythonConstructor
    let ms ← Function.toPythonAll methods
    let members := Layout.docString c.docstring ++ properties ++ constructor ++ ms.flatten
    let remarks := c.remarks.map fun r => .line ("# " ++ r)
    let last := if members.isEmpty then [.line "pass"] else []
    return c.pythonHead ++ [.nest (members ++ remarks ++ last), .blank]
  | .block body => body.toPython

def Stmt.toPythonAll : List Stmt → Except Error (List Layout)
  | [] => .ok []
  | s :: ss => do
    let here ← s.toPython
    let rest ← Stmt.toPythonAll ss
    return here ++ rest

end

end Polyglot
