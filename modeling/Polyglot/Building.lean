import Polyglot.Script

/-!
# Building programs call by call

Calls, functions, interfaces, classes and scripts are built by edits, one after the other. An edit
that is refused reports an error, and the building goes on with what the edit has left.

* `Function.edit`, `Class.edit` and their siblings : what one edit does to one object.
* `Workbench` : any number of objects under construction.
* `Workbench.run` : any sequence of edits, on any of the objects.
-/

set_option autoImplicit false

namespace Polyglot

/-- An edit that is refused leaves the object as it was. -/
def editTo {α : Type} (a : α) : Except Error α → α × Except Error Unit
  | .ok a' => (a', .ok ())
  | .error e => (a, .error e)

/-- Edits the member at a place; a place with nothing on it takes no edits. -/
def editAt {α : Type} (place : Nat) (edit : α → α × Except Error Unit) (as : List α) :
    List α × Except Error Unit :=
  match as[place]? with
  | none => (as, .ok ())
  | some a => (as.set place (edit a).1, (edit a).2)

/-! ## Calls -/

/-- The arguments of a call under construction. -/
structure Invocation where
  args : List Expr
  named : Arguments

/-- An edit of a call. -/
inductive Invocation.Edit where
  | arg (value : Expr)
  | named (name : String) (value : Expr)

def Invocation.edit (i : Invocation) : Edit → Invocation × Except Error Unit
  | .arg value => ({ i with args := i.args ++ [value] }, .ok ())
  | .named name value => editTo i ((i.named.add name value).map fun named => { i with named })

/-! ## Functions -/

/-- An edit of a signature. -/
inductive Signature.Edit where
  | setAbstract (value : Bool)
  | setStatic (value : Bool)
  | setAsync (value : Bool)
  | docstring (lines : List String)
  | pythonDecorator (text : String)
  | typeScriptDecorator (text : String)
  | positional (spec : ParamSpec)
  | keyword (spec : ParamSpec)
  | overload (o : Overload)

/-- The signature after an edit, and whether the edit was refused. -/
def Signature.edit (s : Signature) : Edit → Signature × Except Error Unit
  | .setAbstract value => ({ s with isAbstract := value }, .ok ())
  | .setStatic value => ({ s with isStatic := value }, .ok ())
  | .setAsync value => ({ s with isAsync := value }, .ok ())
  | .docstring lines => ({ s with docstring := lines }, .ok ())
  | .pythonDecorator text => ({ s with pythonDecorators := s.pythonDecorators ++ [text] }, .ok ())
  | .typeScriptDecorator text =>
    ({ s with typeScriptDecorators := s.typeScriptDecorators ++ [text] }, .ok ())
  | .positional spec => editTo s ((s.addPositional spec).map Prod.fst)
  | .keyword spec => editTo s ((s.addKeyword spec).map Prod.fst)
  | .overload o => editTo s (s.addOverload o)

/-- An edit of a body. -/
inductive Body.Edit where
  | statement (s : Stmt)
  | imports (rs : Requests)

def Body.edit (b : Body) : Edit → Body
  | .statement s => b.push s
  | .imports rs => b.addImports rs

/-- An edit of a function. -/
inductive Function.Edit where
  | signature (e : Signature.Edit)
  | body (e : Body.Edit)

def Function.edit (f : Function) : Edit → Function × Except Error Unit
  | .signature e => (⟨(f.signature.edit e).1, f.body⟩, (f.signature.edit e).2)
  | .body e => (⟨f.signature, f.body.edit e⟩, .ok ())

/-! ## Interfaces and classes -/

/-- An edit of an interface. -/
inductive Interface.Edit where
  | property (name : String) (ty : Ty)

def Interface.edit (i : Interface) : Edit → Interface × Except Error Unit
  | .property name ty => editTo i (i.addProperty name ty)

/-- An edit of a class, outside its methods. `parent` sets one parent for every language. -/
inductive Class.Edit where
  | docstring (lines : List String)
  | setAbstract (value : Bool)
  | setDataclass (value : Bool)
  | setExported (value : Bool)
  | parent (name : String)
  | pythonBase (name : String) (forwardsArgs : Bool)
  | typeScriptParent (name : String)
  | phpParent (name : String)
  | property (p : Property)
  | remark (text : String)
  | imports (rs : Requests)

/-- The class after an edit, and whether the edit was refused. A common parent that one language
refuses stays set for the languages before it. -/
def Class.edit (c : Class) : Edit → Class × Except Error Unit
  | .docstring lines => ({ c with docstring := lines }, .ok ())
  | .setAbstract value => ({ c with isAbstract := value }, .ok ())
  | .setDataclass value => ({ c with isDataclass := value }, .ok ())
  | .setExported value => ({ c with isExported := value }, .ok ())
  | .parent name => c.setParent name
  | .pythonBase name forwardsArgs => editTo c (c.addPythonBase name forwardsArgs)
  | .typeScriptParent name => editTo c (c.setTypeScriptParent name)
  | .phpParent name => editTo c (c.setPhpParent name)
  | .property p => editTo c (c.addProperty p)
  | .remark text => ({ c with remarks := c.remarks ++ [text] }, .ok ())
  | .imports rs => ({ c with imports := c.imports ++ rs }, .ok ())

/-- A class under construction, with its methods. -/
structure ClassDraft where
  head : Class
  methods : List Function

/-- An edit of a class or of its methods. -/
inductive ClassDraft.Edit where
  | head (e : Class.Edit)
  | beginMethod (name : String) (result : Option Ty)
  | inMethod (place : Nat) (e : Function.Edit)

def ClassDraft.edit (d : ClassDraft) : Edit → ClassDraft × Except Error Unit
  | .head e => (⟨(d.head.edit e).1, d.methods⟩, (d.head.edit e).2)
  | .beginMethod name result =>
    (⟨d.head, d.methods ++ [⟨.method name result, .empty⟩]⟩, .ok ())
  | .inMethod place e =>
    let edited := editAt place (·.edit e) d.methods
    (⟨d.head, edited.1⟩, edited.2)

/-! ## Scripts -/

/-- An edit of a script. -/
inductive Script.Edit where
  | comment (text : String)
  | namedType (name : String) (base : Ty) (isExported : Bool)
  | body (e : Body.Edit)

def Script.edit (s : Script) : Edit → Script × Except Error Unit
  | .comment text => (s.addComment text, .ok ())
  | .namedType name base isExported => editTo s ((s.addAlias name base isExported).map Prod.fst)
  | .body e => ({ s with body := s.body.edit e }, .ok ())

/-! ## Sequences of calls -/

/-- Objects under construction. An object keeps its place for good. -/
structure Workbench where
  invocations : List Invocation
  functions : List Function
  interfaces : List Interface
  classes : List ClassDraft
  scripts : List Script

namespace Workbench

def empty : Workbench := ⟨[], [], [], [], []⟩

/-- One call of a builder: an object is begun, or the object at a place is edited. -/
inductive Call where
  | beginInvocation
  | beginFunction (name : String) (result : Option Ty)
  | beginInterface (name : String) (isExported : Bool)
  | beginClass (name : String)
  | beginScript
  | inInvocation (place : Nat) (e : Invocation.Edit)
  | inFunction (place : Nat) (e : Function.Edit)
  | inInterface (place : Nat) (e : Interface.Edit)
  | inClass (place : Nat) (e : ClassDraft.Edit)
  | inScript (place : Nat) (e : Script.Edit)

/-- The workbench after a call, and whether the call was refused. -/
def step (w : Workbench) : Call → Workbench × Except Error Unit
  | .beginInvocation => ({ w with invocations := w.invocations ++ [⟨[], []⟩] }, .ok ())
  | .beginFunction name result =>
    ({ w with functions := w.functions ++ [⟨.function name result, .empty⟩] }, .ok ())
  | .beginInterface name isExported =>
    ({ w with interfaces := w.interfaces ++ [⟨name, isExported, []⟩] }, .ok ())
  | .beginClass name => ({ w with classes := w.classes ++ [⟨.new name, []⟩] }, .ok ())
  | .beginScript => ({ w with scripts := w.scripts ++ [.empty] }, .ok ())
  | .inInvocation place e =>
    let edited := editAt place (·.edit e) w.invocations
    ({ w with invocations := edited.1 }, edited.2)
  | .inFunction place e =>
    let edited := editAt place (·.edit e) w.functions
    ({ w with functions := edited.1 }, edited.2)
  | .inInterface place e =>
    let edited := editAt place (·.edit e) w.interfaces
    ({ w with interfaces := edited.1 }, edited.2)
  | .inClass place e =>
    let edited := editAt place (·.edit e) w.classes
    ({ w with classes := edited.1 }, edited.2)
  | .inScript place e =>
    let edited := editAt place (·.edit e) w.scripts
    ({ w with scripts := edited.1 }, edited.2)

/-- The workbench after a sequence of calls. Calls that are refused do not end it. -/
def run (w : Workbench) (calls : List Call) : Workbench := calls.foldl (fun w c => (w.step c).1) w

end Workbench

end Polyglot
