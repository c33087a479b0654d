import Polyglot.Stmt.Basic

/-!
# Statements around a text

A statement that holds a text at one place is given by the place and by what is around it, layer by
layer from the outside in.

* `Expr.Context`, `Plain.Context`, `Stmt.Context` : expressions and statements without the text.
* `Expr.Context.fill`, `Plain.Context.fill`, `Stmt.Context.fill` : they with the text.
* `Stmt.Context.depth` : how deep the line with the text stands below the line of the statement.
-/

set_option autoImplicit false

namespace Polyglot

/-! ## Expressions -/

namespace Expr

/-- A place for a text in an expression: a constant, a key of a dict, or a part of a text that is
put together. -/
inductive Site where
  | constant
  | key (before : List (String × Expr)) (value : Expr) (after : List (String × Expr))
      (valueType : Ty)
  | chars (before after : List Part)

/-- The expression with the text at its place. -/
def Site.fill (s : String) : Site → Expr
  | .constant => .literal (.str s)
  | .key before value after valueType => .dict (before ++ (s, value) :: after) valueType
  | .chars before after => .text (before ++ .chars s :: after)

/-- A node around an expression, with its other parts. An `item` is a subscript of the expression,
and an `itemAt` one by the expression. -/
inductive Layer where
  | list (before after : List Expr) (inner : Ty)
  | dict (before : List (String × Expr)) (name : String) (after : List (String × Expr))
      (valueType : Ty)
  | cast (ty : Ty)
  | item (selector : Selector) (key : Expr)
  | itemAt (selector : Selector) (target : Expr)
  | itemOr (selector : Selector) (key fallback : Expr)
  | itemOrAt (selector : Selector) (target fallback : Expr)
  | fallback (selector : Selector) (target key : Expr)
  | prop (name : String) (ty : Ty)
  | argument (callee : String) (construct : Bool) (before after : List Expr)
      (named : List (String × Expr))
  | namedArgument (callee : String) (construct : Bool) (args : List Expr)
      (before : List (String × Expr)) (name : String) (after : List (String × Expr))
  | apply (construct : Bool) (args : List Expr) (named : List (String × Expr))
  | applyArgument (callee : Expr) (construct : Bool) (before after : List Expr)
      (named : List (String × Expr))
  | applyNamedArgument (callee : Expr) (construct : Bool) (args : List Expr)
      (before : List (String × Expr)) (name : String) (after : List (String × Expr))
  | text (before after : List Part)
  | junction (op : Junction) (before after : List Expr)
  | not
  | length
  | isNull (negated : Bool)
  | compareLeft (op : Comparison) (negated : Bool) (right : Expr)
  | compareRight (op : Comparison) (negated : Bool) (left : Expr)
  | isType (test : TypeTest)
  | supplied
  | await

/-- The node with the expression at its place. -/
def Layer.fill (e : Expr) : Layer → Expr
  | .list before after inner => .list (before ++ e :: after) inner
  | .dict before name after valueType => .dict (before ++ (name, e) :: after) valueType
  | .cast ty => .cast ty e
  | .item selector key => .item selector e key
  | .itemAt selector target => .item selector target e
  | .itemOr selector key other => .itemOr selector e key other
  | .itemOrAt selector target other => .itemOr selector target e other
  | .fallback selector target key => .itemOr selector target key e
  | .prop name ty => .prop e name ty
  | .argument callee construct before after named =>
    .call callee construct (before ++ e :: after) named
  | .namedArgument callee construct args before name after =>
    .call callee construct args (before ++ (name, e) :: after)
  | .apply construct args named => .apply e construct args named
  | .applyArgument callee construct before after named =>
    .apply callee construct (before ++ e :: after) named
  | .applyNamedArgument callee construct args before name after =>
    .apply callee construct args (before ++ (name, e) :: after)
  | .text before after => .text (before ++ .value e :: after)
  | .junction op before after => .junction op (before ++ e :: after)
  | .not => .not e
  | .length => .length e
  | .isNull negated => .isNull negated e
  | .compareLeft op negated right => .compare op negated e right
  | .compareRight op negated left => .compare op negated left e
  | .isType test => .isType test e
  | .supplied => .supplied e
  | .await => .await e

/-- An expression around a text, with the nodes around the place from the outermost to the
innermost. -/
structure Context where
  layers : List Layer
  site : Site

/-- The expression with the text. -/
def Context.fill (C : Context) (s : String) : Expr :=
  C.layers.foldr (fun layer e => layer.fill e) (C.site.fill s)

end Expr

/-! ## Statements without a body -/

/-- A statement without a body around a text. -/
inductive Plain.Context where
  | expr (C : Expr.Context)
  | ret (C : Expr.Context)
  | raiseText (anyClass : Option String) (classes : PerTarget (Option String))
  | raise (C : Expr.Context) (anyClass : Option String) (classes : PerTarget (Option String))
  | assignTo (C : Expr.Context) (value : Expr)
  | assign (target : Expr) (C : Expr.Context)
  | declare (name : String) (ty : Option Ty) (C : Expr.Context)
  | appendTo (C : Expr.Context) (value : Expr)
  | append (list : Expr) (C : Expr.Context)
  | buildKey (name : String) (valueType : Ty) (before : List BuilderEntry) (value : Expr)
      (allowOmit : Bool) (after : List BuilderEntry)
  | build (name : String) (valueType : Ty) (before : List BuilderEntry) (key : String)
      (C : Expr.Context) (allowOmit : Bool) (after : List BuilderEntry)

/-- The statement with the text. -/
def Plain.Context.fill (s : String) : Context → Plain
  | .expr C => .expr (C.fill s)
  | .ret C => .ret (C.fill s)
  | .raiseText anyClass classes => .raise ⟨.text s, anyClass, classes⟩
  | .raise C anyClass classes => .raise ⟨.value (C.fill s), anyClass, classes⟩
  | .assignTo C value => .assign (.assign (C.fill s) value)
  | .assign target C => .assign (.assign target (C.fill s))
  | .declare name ty C => .assign (.declare name ty (some (C.fill s)))
  | .appendTo C value => .append (C.fill s) value
  | .append list C => .append list (C.fill s)
  | .buildKey name valueType before value allowOmit after =>
    .build ⟨name, valueType, before ++ ⟨s, value, allowOmit⟩ :: after⟩
  | .build name valueType before key C allowOmit after =>
    .build ⟨name, valueType, before ++ ⟨key, C.fill s, allowOmit⟩ :: after⟩

/-! ## Statements -/

/-- The arms of a conditional behind tested arms. -/
def Branches.behind (arms : List (Expr × Body)) (bs : Branches) : Branches :=
  arms.foldr (fun arm bs => .elseIf arm.1 arm.2 bs) bs

/-- The arms of a `try` behind handlers. -/
def Handlers.behind (arms : List (Catch × Body)) (hs : Handlers) : Handlers :=
  arms.foldr (fun arm hs => .handler arm.1 arm.2 hs) hs

/-- A body around a statement. -/
structure Body.Layer where
  imports : Requests
  before : List Stmt
  after : List Stmt

/-- The body with the statement at its place. -/
def Body.Layer.fill (s : Stmt) (b : Body.Layer) : Body := ⟨b.imports, b.before ++ s :: b.after⟩

namespace Stmt

/-- A place for a text in the first line of a statement or of one of its arms. -/
inductive Site where
  | plain (P : Plain.Context)
  | test (C : Expr.Context) (body : Body) (branches : Branches)
  | elseIfTest (test : Expr) (body : Body) (arms : List (Expr × Body)) (C : Expr.Context)
      (armBody : Body) (rest : Branches)
  | forEach (name : String) (C : Expr.Context) (body : Body)
  | forEntries (key : Option String) (value : String) (C : Expr.Context) (body : Body)

/-- The statement with the text at its place. -/
def Site.fill (s : String) : Site → Stmt
  | .plain P => .plain (P.fill s)
  | .test C body branches => .conditional (C.fill s) body branches
  | .elseIfTest first body arms C armBody rest =>
    .conditional first body (.behind arms (.elseIf (C.fill s) armBody rest))
  | .forEach name C body => .forEach name (C.fill s) body
  | .forEntries key value C body => .forEntries key value (C.fill s) body

/-- A statement around a statement, with its other parts. -/
inductive Layer where
  | conditional (test : Expr) (body : Body.Layer) (branches : Branches)
  | elseIf (test : Expr) (body : Body) (arms : List (Expr × Body)) (armTest : Expr)
      (armBody : Body.Layer) (rest : Branches)
  | otherwise (test : Expr) (body : Body) (arms : List (Expr × Body)) (last : Body.Layer)
  | forEach (name : String) (iterable : Expr) (body : Body.Layer)
  | forEntries (key : Option String) (value : String) (iterable : Expr) (body : Body.Layer)
  | attempt (body : Body.Layer) (handlers : Handlers)
  | handler (body : Body) (arms : List (Catch × Body)) (arm : Catch) (armBody : Body.Layer)
      (rest : Handlers)
  | cleanup (body : Body) (arms : List (Catch × Body)) (last : Body.Layer)
  | function (signature : Signature) (body : Body.Layer)
  | method (c : Class) (before : List Function) (signature : Signature) (body : Body.Layer)
      (after : List Function)
  | block (body : Body.Layer)

/-- The outer statement with the inner one at its place. -/
def Layer.fill (s : Stmt) : Layer → Stmt
  | .conditional test body branches => .conditional test (body.fill s) branches
  | .elseIf test body arms armTest armBody rest =>
    .conditional test body (.behind arms (.elseIf armTest (armBody.fill s) rest))
  | .otherwise test body arms last =>
    .conditional test body (.behind arms (.otherwise (last.fill s)))
  | .forEach name iterable body => .forEach name iterable (body.fill s)
  | .forEntries key value iterable body => .forEntries key value iterable (body.fill s)
  | .attempt body handlers => .attempt (body.fill s) handlers
  | .handler body arms arm armBody rest =>
    .attempt body (.behind arms (.handler arm (armBody.fill s) rest))
  | .cleanup body arms last => .attempt body (.behind arms (.cleanup (last.fill s)))
  | .function signature body => .function ⟨signature, body.fill s⟩
  | .method c before signature body after =>
    .classDef c (before ++ ⟨signature, body.fill s⟩ :: after)
  | .block body => .block (body.fill s)

/-- How much deeper the inner statement stands. -/
def Layer.depth : Layer → Nat
  | .method .. => 2
  | .block _ => 0
  | _ => 1

/-- A statement around a text, with the statements around the place from the outermost to the
innermost. -/
structure Context where
  layers : List Layer
  site : Site

/-- The statement with the text. -/
def Context.fill (C : Context) (s : String) : Stmt :=
  C.layers.foldr (fun layer inner => layer.fill inner) (C.site.fill s)

/-- How deep the line with the text stands below the first line. -/
def Context.depth (C : Context) : Nat := C.layers.foldr (fun layer n => layer.depth + n) 0

end Stmt

end Polyglot
