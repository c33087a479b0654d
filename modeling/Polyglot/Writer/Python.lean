import Polyglot.Stmt.Python
import Polyglot.Writer

/-!
# Writing statements in Python

Every statement is put into the buffer as it is met, and says for how many statements of code it
counts: where a suite counts for none, `pass` is written.
-/

set_option autoImplicit false

namespace Polyglot

open WriteM

/-- A suite one level deeper, with `pass` if it produced no code. -/
def WriteM.pythonSuite (block : WriteM Nat) : WriteM Unit :=
  nested do
    let count ← block
    when (count = 0) (line0 "pass")

def Assignment.writePython : Assignment → WriteM Unit
  | .assign target value => do
    line0 ((← target.pythonText) ++ " = " ++ (← value.pythonText))
  | .declare name ty value => do
    line0 (name ++ (← Ty.pythonSuffix ": " ty) ++ (← Expr.pythonSuffix " = " value))

/-- The construction of a dict: the pairs that are always there, and then each of the others behind
a test. -/
def DictBuilder.writePython (b : DictBuilder) : WriteM Unit := do
  let pairs ← (b.fixed.mapM BuilderEntry.pythonPair : Except Error (List String))
  line0 (b.name ++ ": " ++ (← b.ty.pythonText) ++ " = \x7b" ++ ", ".intercalate pairs ++ "\x7d")
  b.guarded.forM fun e => do
    line0 ("if " ++ (← (Expr.supplied e.value).pythonText) ++ ":")
    line1 (b.name ++ "[" ++ Text.Quoted.encode e.key ++ "] = " ++ (← e.value.pythonText))

/-- A statement without a body. Blank lines, comments and code that is left out do not count. -/
def Plain.writePython : Plain → WriteM Nat
  | .blank => do
    blankLine
    return 0
  | .comment text => do
    marked "# " text
    return 0
  | .expr e => do
    line0 (← e.pythonText)
    return 1
  | .snippet codes =>
    match codes.python with
    | .missing => throw (.missing .stmt .python)
    | .omitted => return 0
    | .code text => do
      line0 text
      return 1
  | .raise r => do
    line0 ("raise " ++ r.classFor .python ++ "(" ++ (← r.report.toPython) ++ ")")
    return 1
  | .ret .omit => do
    line0 "return"
    return 1
  | .ret value => do
    line0 ("return " ++ (← value.pythonText))
    return 1
  | .assign a => do
    a.writePython
    return 1
  | .append list value => do
    line0 ((← list.toPython).base ++ ".append(" ++ (← value.pythonText) ++ ")")
    return 1
  | .build b => do
    b.writePython
    return 1
  | .interface _ => throw (.notSupported .interface .python)

def Plain.writePythonAll : List Plain → WriteM Nat
  | [] => return 0
  | p :: ps => do
    let here ← p.writePython
    let rest ← Plain.writePythonAll ps
    return here + rest

/-- The text of a parameter. -/
def Param.pythonText (p : Param) : Except Error String := do
  return p.name ++ ": " ++ (← p.ty.pythonText) ++ (← Expr.pythonSuffix " = " p.default)

namespace Signature

/-- The parameters of a function, on lines of their own. -/
def writePythonParams (s : Signature) : WriteM Unit := do
  when s.isMethod (line0 (if s.isStatic then "class_," else "self,"))
  s.positional.forM fun p => do line0 ((← p.pythonText) ++ ",")
  when (!s.keyword.isEmpty) do
    line0 "*,"
    s.keyword.forM fun p => do line0 ((← p.pythonText) ++ ",")

/-- The type of the result of a function. -/
def pythonResult (s : Signature) : Except Error String :=
  match s.result with
  | none => return "None"
  | some ty => ty.pythonText

/-- A function whose statements a block writes, below its overloads. -/
def writePythonBelow (s : Signature) (block : WriteM Nat) : WriteM Nat := do
  blankLine
  s.pythonDecorators.forM fun d => line0 ("@" ++ d)
  when s.isStatic (line0 "@classmethod")
  when s.isAbstract (line0 "@abc.abstractmethod")
  let name := if s.isConstructor then "__init__" else s.name
  line0 ((if s.isAsync then "async def " else "def ") ++ name ++ "(")
  nested s.writePythonParams
  line0 (") -> " ++ (← s.pythonResult) ++ ":")
  nested do
    docString s.docstring
    let count ← block
    if s.isAbstract then
      line0 "..."
    else
      when (count = 0) (line0 "pass")
  return 1

/-- A function whose statements a block writes. Its overloads stand above it, each as a function
that has no overloads, is not abstract and holds nothing but an ellipsis. -/
def writePython (s : Signature) (isEmpty : Bool) (block : WriteM Nat) : WriteM Nat := do
  s.checkBody isEmpty
  s.overloads.forM fun o => do
    let _ ← (s.variant o).writePythonBelow do
      line0 "..."
      return 1
  s.writePythonBelow block

end Signature

namespace Class

def writePythonHead (c : Class) : WriteM Unit := do
  when c.isDataclass (line0 "@dataclass")
  let bases := c.pythonBases ++ (if c.isAbstract then ["abc.ABC"] else [])
  line0 ("class " ++ c.name ++
    (if bases.isEmpty then ":" else "(" ++ ", ".intercalate bases ++ "):"))

/-- The members of a class above its methods. The result tells whether there are any. -/
def writePythonMembers (c : Class) : WriteM Bool := do
  docString c.docstring
  c.properties.forM fun p => do line0 (p.name ++ ": " ++ (← p.ty.pythonText))
  match ← c.constructor .python with
  | none => return !c.docstring.isEmpty || !c.properties.isEmpty
  | some k =>
    let _ ← k.signature.writePython k.body.isEmpty (Plain.writePythonAll k.body)
    return true

end Class

mutual

def Body.writePython : Body → WriteM Nat
  | ⟨_, stmts⟩ => Stmt.writePythonAll stmts

def Function.writePython : Function → WriteM Nat
  | ⟨signature, body⟩ => signature.writePython body.stmts.isEmpty body.writePython

/-- The methods of a class. The result tells whether the class has a member, given whether it has one
above its methods. -/
def Function.writePythonAll : Bool → List Function → WriteM Bool
  | hasBody, [] => return hasBody
  | _, f :: fs => do
    let _ ← f.writePython
    Function.writePythonAll true fs

/-- The arms of a conditional after the first. -/
def Branches.writePython : Branches → WriteM Unit
  | .done => return
  | .otherwise body => do
    line0 "else:"
    pythonSuite body.writePython
  | .elseIf test body rest => do
    line0 ("elif " ++ (← test.pythonText) ++ ":")
    pythonSuite body.writePython
    rest.writePython

/-- The arms of a `try` after its body. -/
def Handlers.writePython : Handlers → WriteM Unit
  | .done => return
  | .cleanup body => do
    line0 "finally:"
    pythonSuite body.writePython
  | .handler arm body rest => do
    let caught := "except " ++ arm.classes.python.getD (Target.exceptionClass .python)
    line0 (match arm.var with
      | some name => caught ++ " as " ++ name ++ ":"
      | none => caught ++ ":")
    pythonSuite body.writePython
    rest.writePython

def Stmt.writePython : Stmt → WriteM Nat
  | .plain p => p.writePython
  | .conditional test body branches => do
    line0 ("if " ++ (← test.pythonText) ++ ":")
    pythonSuite body.writePython
    branches.writePython
    blankLine
    return 1
  | .forEach name iterable body => do
    line0 ("for " ++ name ++ " in " ++ (← iterable.pythonText) ++ ":")
    pythonSuite body.writePython
    blankLine
    return 1
  | .forEntries key value iterable body => do
    let i ← iterable.toPython
    line0 (match key with
      | some key => "for " ++ key ++ ", " ++ value ++ " in " ++ i.base ++ ".items():"
      | none => "for " ++ value ++ " in " ++ i.base ++ ".values():")
    pythonSuite body.writePython
    blankLine
    return 1
  | .attempt body handlers => do
    handlers.check
    line0 "try:"
    pythonSuite body.writePython
    handlers.writePython
    return 1
  | .function f => f.writePython
  | .classDef c methods => do
    c.writePythonHead
    nested do
      let above ← c.writePythonMembers
      let hasBody ← Function.writePythonAll above methods
      c.remarks.forM fun r => line0 ("# " ++ r)
      when (!hasBody) (line0 "pass")
    blankLine
    return 1
  | .block body => body.writePython

def Stmt.writePythonAll : List Stmt → WriteM Nat
  | [] => return 0
  | s :: ss => do
    let here ← s.writePython
    let rest ← Stmt.writePythonAll ss
    return here + rest

end

end Polyglot
