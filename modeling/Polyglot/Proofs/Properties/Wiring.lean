import Polyglot.Expr.Render
import Polyglot.Proofs.Stmt.Constructor
import Polyglot.Proofs.Stmt.Render

/-!
# How a class gives its properties values

A property can get a value beside its declaration and by statements of the constructor. A written
class is described by what stands in these places, and the description by the values that it has for
a property.

* `Write` : a value for a property, as an expression or as text.
* `Wiring`, `Class.text` : declarations and constructor of a class, and its text with them.
* `Class.writes` : the values that a class has for its properties in one language.
* `Class.IsWired` : a description that has these values, and nothing that is not in the class.
* `Class.exists_wiring` : **every class that can be written** is written as such a description.
-/

set_option autoImplicit false

namespace Polyglot

open Outcome

/-! ## Values for properties -/

/-- Where a property gets a value when an object is made. -/
inductive Site where
  | declaration
  | constructor
  deriving DecidableEq, Repr

/-- A value that a property gets when an object is made. -/
structure Write (α : Type) where
  property : String
  site : Site
  value : α
  deriving DecidableEq, Repr

/-- The text of an expression in one language. -/
def Expr.writtenIn (e : Expr) (t : Target) : Except Error String := do
  let c ← e.render t
  return c.text

/-- A text is that of an expression, for the same property at the same site. -/
def Write.IsText (t : Target) (w : Write Expr) (w' : Write String) : Prop :=
  w'.property = w.property ∧ w'.site = w.site ∧ w.value.writtenIn t = .ok w'.value

namespace Property

/-- The value of the constructor's parameter. -/
def argument (p : Property) : Expr := .var p.name (some p.ty)

/-- The value beside the declaration; in Python there is none. -/
def initial? (t : Target) (p : Property) : Option (Write Expr) :=
  match t with
  | .python => none
  | .typescript | .php => p.literalDefault?.map (⟨p.name, .declaration, ·⟩)

/-- The argument, if the constructor stores it. -/
def stored? (p : Property) : Option (Write Expr) :=
  if p.initarg then some ⟨p.name, .constructor, p.argument⟩ else none

/-- The default, if the constructor stores it. -/
def storedDefault? (t : Target) (p : Property) : Option (Write Expr) :=
  (p.assignedDefault? t).map (⟨p.name, .constructor, ·⟩)

end Property

/-- The value for a property of the object that a statement stores. -/
def Plain.write? : Plain → Option (Write Expr)
  | .assign (.assign (.field name _) value) => some ⟨name, .constructor, value⟩
  | _ => none

namespace Class

/-- The values that the constructor stores. -/
def stored (c : Class) (t : Target) : List (Write Expr) :=
  c.properties.filterMap Property.stored? ++ c.properties.filterMap (Property.storedDefault? t)

/-- The values that a class has for its properties, beside declarations and in its constructor. -/
def writes (c : Class) (t : Target) : List (Write Expr) :=
  c.properties.filterMap (Property.initial? t) ++ c.stored t

end Class

/-! ## Text -/

/-- A declaration of a property in the body of a class, in PHP with its type as a comment. -/
structure Declaration where
  property : Property
  typeText : String
  initial : Option String

/-- A statement of a constructor that follows from the properties: the call of the parent's
constructor, or a new value for a property of the object. -/
inductive ConstructorStep where
  | parent (call : String)
  | store (property value : String)

/-- A class as it is written, as far as its properties are concerned. Of the constructor, if there
is one, these are the lines above its statements, and the statements. -/
structure Wiring where
  declarations : List Declaration
  constructor : Option (List Layout × List ConstructorStep)

/-- What stands in front of a property of the object in its constructor. -/
def Target.ownPrefix : Target → String
  | .python => "self."
  | .typescript => "this."
  | .php => "$this->"

/-- What stands at the end of a statement. -/
def Target.terminator : Target → String
  | .python => ""
  | .typescript | .php => ";"

/-- The text of a value behind what it belongs to. -/
def Declaration.suffix (d : Declaration) : String :=
  match d.initial with
  | some text => " = " ++ text
  | none => ""

/-- The lines of a declaration. -/
def Declaration.print (t : Target) (d : Declaration) : List Layout :=
  match t with
  | .python => [.line (d.property.name ++ ": " ++ d.typeText ++ d.suffix)]
  | .typescript =>
    (if d.property.observable then [.blank, .line "@observable"] else []) ++
      [.line ((if d.property.readonly then "readonly " else "public ") ++ d.property.name ++ ": " ++
        d.typeText ++ d.suffix ++ ";")]
  | .php => [.line d.typeText, .line ("public $" ++ d.property.name ++ d.suffix ++ ";")]

/-- The value beside a declaration. -/
def Declaration.write? (d : Declaration) : Option (Write String) :=
  d.initial.map (⟨d.property.name, .declaration, ·⟩)

/-- The line of a statement. -/
def ConstructorStep.print (t : Target) : ConstructorStep → Layout
  | .parent call => .line call
  | .store property value => .line (t.ownPrefix ++ property ++ " = " ++ value ++ t.terminator)

/-- The value that a statement stores. -/
def ConstructorStep.write? : ConstructorStep → Option (Write String)
  | .parent _ => none
  | .store property value => some ⟨property, .constructor, value⟩

/-- What stands behind the statements of a function. -/
def Target.functionEnd : Target → List Layout
  | .python => []
  | .typescript | .php => [.line "\x7d"]

namespace Wiring

/-- The statements of the constructor. -/
def steps (w : Wiring) : List ConstructorStep :=
  match w.constructor with
  | none => []
  | some k => k.2

/-- The lines of the declarations. -/
def declared (w : Wiring) (t : Target) : List Layout := w.declarations.flatMap (·.print t)

/-- The lines of the constructor, if there is one. -/
def constructed (w : Wiring) (t : Target) : List (List Layout) :=
  w.constructor.toList.map fun k => k.1 ++ .nest (k.2.map (·.print t)) :: t.functionEnd

/-- The values for properties. -/
def writes (w : Wiring) : List (Write String) :=
  w.declarations.filterMap Declaration.write? ++ w.steps.filterMap ConstructorStep.write?

/-- The values for a property. -/
def writesTo (w : Wiring) (name : String) : List (Write String) :=
  w.writes.filter (·.property = name)

end Wiring

def Function.layoutAll (fs : List Function) : Target → Except Error (List (List Layout))
  | .python => toPythonAll fs
  | .typescript => toTypeScriptAll fs
  | .php => toPhpAll fs

/-- The lines of a function in one language, down to its statements. -/
def Signature.head (s : Signature) : Target → Except Error (List Layout)
  | .python => s.pythonHead
  | .typescript => s.typeScriptHead
  | .php => s.phpHead

/-- The text of a class with the given declarations, constructor and methods. -/
def Class.text (c : Class) (t : Target) (w : Wiring) (methods : List (List Layout)) :
    List Layout :=
  match t with
  | .python =>
    let members := Layout.docString c.docstring ++ w.declared t ++ (w.constructed t).flatten ++
      methods.flatten
    c.pythonHead ++ [.nest (members ++ c.remarks.map (fun r => .line ("# " ++ r)) ++
      if members.isEmpty then [.line "pass"] else []), .blank]
  | .typescript =>
    Layout.docBlock c.docstring ++ [.line c.typeScriptHead,
      .nest (w.declared t ++ Layout.spaced (!c.properties.isEmpty) (w.constructed t ++ methods) ++
        c.remarks.map fun r => .line ("// " ++ r)), .line "\x7d"]
  | .php =>
    Layout.docBlock c.docstring ++ [.line c.phpHead,
      .nest (w.declared t ++ Layout.spaced (!c.properties.isEmpty) (w.constructed t ++ methods) ++
        c.remarks.map fun r => .line ("// " ++ r)), .line "\x7d"]

/-! ### Descriptions of a class -/

/-- The type of a property as it stands at the declaration. -/
def Property.typeText (p : Property) : Target → Except Error String
  | .python => p.ty.pythonText
  | .typescript => p.ty.typeScriptText
  | .php => p.ty.phpVarComment

/-- The lines of a statement without a body in one language. -/
def Plain.layout (p : Plain) : Target → Except Error (List Layout)
  | .python => p.toPython
  | .typescript => p.toTypeScript
  | .php => p.toPhp

/-- A declaration of a property with its type, and with the value that the property has there. -/
structure Declaration.IsOf (t : Target) (p : Property) (d : Declaration) : Prop where
  property : d.property = p
  typeText : p.typeText t = .ok d.typeText
  initial : Option.Rel (Write.IsText t) (p.initial? t) d.write?

/-- A statement of a constructor that stores nothing is the call of the parent's constructor. -/
def ConstructorStep.IsOf (t : Target) (c : Class) : ConstructorStep → Prop
  | .parent call => ∃ q, c.parentCall? t = some q ∧ q.layout t = .ok [.line call]
  | .store _ _ => True

/-- A description of a written class that is one of the given class: there is a constructor if there
is something to store, with an argument for every property that asks for one, and what is written
are the values that the class has. -/
structure Class.IsWired (c : Class) (t : Target) (w : Wiring) : Prop where
  declared : List.Forall₂ (Declaration.IsOf t) c.properties w.declarations
  constructed : w.constructor = none ∧ c.stored t = [] ∨ ∃ k params, w.constructor = some k ∧
    c.initargs.mapM Property.param = .ok params ∧
    (Signature.constructor (params ++ c.forwardedParams t)).head t = .ok k.1
  called : ∀ s ∈ w.steps, s.IsOf t c
  written : List.Forall₂ (Write.IsText t) (c.writes t) w.writes

/-- The text of an expression that may be absent, behind a separator. -/
def Expr.suffixIn (separator : String) (e : Option Expr) : Target → Except Error String
  | .python => pythonSuffix separator e
  | .typescript => typeScriptSuffix separator e
  | .php => phpSuffix separator e

variable {t : Target}

/-! ## Declarations -/

theorem Expr.suffixIn_eq_ok {separator text : String} {e? : Option Expr}
    (h : suffixIn separator e? t = .ok text) :
    e? = none ∧ text = "" ∨ ∃ e v, e? = some e ∧ e.writtenIn t = .ok v ∧ text = separator ++ v := by
  cases e? with
  | none =>
      have hempty : (Except.ok "" : Except Error String) = .ok text := by cases t <;> exact h
      cases hempty
      exact .inl ⟨rfl, rfl⟩
  | some e =>
      have hbind : (e.writtenIn t >>= fun v => pure (separator ++ v)) = .ok text := by
        cases t <;> exact h
      obtain ⟨v, hv, h⟩ := bind_eq_ok.1 hbind
      cases pure_eq_ok.1 h
      exact .inr ⟨e, v, rfl, hv, rfl⟩

/-- The text behind the declaration of a property is that of its value there. -/
theorem Declaration.exists_isOf {p : Property} {suffix : String} (ht : t ≠ .python)
    (h : Expr.suffixIn " = " p.literalDefault? t = .ok suffix) {typeText : String}
    (htype : p.typeText t = .ok typeText) :
    ∃ initial, IsOf t p ⟨p, typeText, initial⟩ ∧ suffix = (mk p typeText initial).suffix := by
  have hinitial : p.initial? t = p.literalDefault?.map (⟨p.name, .declaration, ·⟩) := by
    cases t with
    | python => exact absurd rfl ht
    | typescript | php => rfl
  rcases Expr.suffixIn_eq_ok h with ⟨hnone, rfl⟩ | ⟨e, v, hsome, hv, rfl⟩
  · rw [hnone] at hinitial
    exact ⟨none, ⟨rfl, htype, hinitial ▸ .none⟩, rfl⟩
  · rw [hsome] at hinitial
    exact ⟨some v, ⟨rfl, htype, hinitial ▸ .some ⟨rfl, rfl, hv⟩⟩, rfl⟩

namespace Class

theorem exists_pythonDeclarations {c : Class} {ls : List Layout}
    (h : c.pythonProperties = .ok ls) :
    ∃ ds, List.Forall₂ (Declaration.IsOf .python) c.properties ds ∧
      ls = ds.flatMap (·.print .python) := by
  obtain ⟨ds, hds, rfl⟩ : ∃ ds, List.Forall₂ (Declaration.IsOf .python) c.properties ds ∧
      ls = ds.map fun d => .line (d.property.name ++ ": " ++ d.typeText ++ d.suffix) := by
    refine exists_map_of_mapM_eq_ok h fun p _ l hl => ?_
    obtain ⟨ty, hty, hl⟩ := bind_eq_ok.1 hl
    cases pure_eq_ok.1 hl
    exact ⟨⟨p, ty, none⟩, ⟨rfl, hty, .none⟩, congrArg Layout.line String.append_empty.symm⟩
  exact ⟨ds, hds, List.map_eq_flatMap⟩

theorem exists_typeScriptDeclarations {c : Class} {lss : List (List Layout)}
    (h : c.properties.mapM typeScriptProperty = .ok lss) :
    ∃ ds, List.Forall₂ (Declaration.IsOf .typescript) c.properties ds ∧
      lss = ds.map (·.print .typescript) := by
  refine exists_map_of_mapM_eq_ok h fun p _ ls hls => ?_
  obtain ⟨ty, hty, hls⟩ := bind_eq_ok.1 hls
  obtain ⟨suffix, hsuffix, hls⟩ := bind_eq_ok.1 hls
  cases pure_eq_ok.1 hls
  have htarget : Target.typescript ≠ .python := nofun
  obtain ⟨initial, hd, rfl⟩ := Declaration.exists_isOf htarget hsuffix hty
  exact ⟨⟨p, ty, initial⟩, hd, rfl⟩

theorem exists_phpDeclarations {c : Class} {lss : List (List Layout)}
    (h : c.properties.mapM phpProperty = .ok lss) :
    ∃ ds, List.Forall₂ (Declaration.IsOf .php) c.properties ds ∧ lss = ds.map (·.print .php) := by
  refine exists_map_of_mapM_eq_ok h fun p _ ls hls => ?_
  obtain ⟨comment, hcomment, hls⟩ := bind_eq_ok.1 hls
  obtain ⟨suffix, hsuffix, hls⟩ := bind_eq_ok.1 hls
  cases pure_eq_ok.1 hls
  have htarget : Target.php ≠ .python := nofun
  obtain ⟨initial, hd, rfl⟩ := Declaration.exists_isOf htarget hsuffix hcomment
  exact ⟨⟨p, comment, initial⟩, hd, rfl⟩

/-! ## Constructors -/

/-- A statement that stores a value in a property is written as such. -/
theorem exists_store {p : Property} {e : Expr} {ls : List Layout}
    (h : (Plain.assign (.assign p.expr e)).layout t = .ok ls) :
    ∃ v, e.writtenIn t = .ok v ∧ ls = [(ConstructorStep.store p.name v).print t] := by
  have hbind : (e.writtenIn t >>= fun v =>
      pure [(ConstructorStep.store p.name v).print t]) = .ok ls := by
    cases t with
    | python =>
        simp only [ConstructorStep.print, Target.terminator, String.append_empty]
        exact h
    | typescript | php => exact h
  obtain ⟨v, hv, h⟩ := bind_eq_ok.1 hbind
  exact ⟨v, hv, (pure_eq_ok.1 h).symm⟩

/-- A call of the parent's constructor is written as it is, and stores nothing. -/
theorem layout_of_parentCall {c : Class} {q : Plain} (hq : c.parentCall? t = some q) :
    q.write? = none ∧ ∃ call, q.layout t = .ok [(ConstructorStep.parent call).print t] := by
  cases t with
  | python =>
      rw [parentCall?] at hq
      split at hq
      · cases hq
      · cases hq
        exact ⟨rfl, _, rfl⟩
  | typescript | php =>
      obtain ⟨_, -, rfl⟩ := Option.map_eq_some_iff.1 hq
      exact ⟨rfl, _, rfl⟩

/-- A statement of a constructor is written in one line, with the value that it stores. -/
theorem exists_step {c : Class} {k : Constructor} (hk : c.constructor t = .ok (some k))
    {q : Plain} (hq : q ∈ k.body) {ls : List Layout} (h : q.layout t = .ok ls) :
    ∃ s : ConstructorStep,
      (s.IsOf t c ∧ Option.Rel (Write.IsText t) q.write? s.write?) ∧ ls = [s.print t] := by
  have hstore : ∀ (p : Property) (e : Expr), q = .assign (.assign p.expr e) →
      ∃ s : ConstructorStep,
        (s.IsOf t c ∧ Option.Rel (Write.IsText t) q.write? s.write?) ∧ ls = [s.print t] := by
    rintro p e rfl
    obtain ⟨v, hv, hls⟩ := exists_store h
    exact ⟨.store p.name v, ⟨trivial, .some ⟨rfl, rfl, hv⟩⟩, hls⟩
  obtain ⟨_, -, -, hbody⟩ := exists_of_constructor hk
  rcases hbody q hq with hparent | hargument | hdefault
  · obtain ⟨hwrite, call, hcall⟩ := layout_of_parentCall hparent
    refine ⟨.parent call, ⟨⟨q, hparent, hcall⟩, hwrite ▸ .none⟩, ?_⟩
    rw [hcall] at h
    cases h
    rfl
  · obtain ⟨p, -, rfl⟩ := List.mem_map.1 hargument
    exact hstore p _ rfl
  · obtain ⟨p, -, hp⟩ := List.mem_filterMap.1 hdefault
    obtain ⟨e, -, rfl⟩ := Option.map_eq_some_iff.1 hp
    exact hstore p e rfl

/-- The constructor that follows from the properties, in one language. -/
def Constructor.layout (k : Constructor) : Target → Except Error (List Layout)
  | .python => k.toPython
  | .typescript => k.toTypeScript
  | .php => k.toPhp

/-! ### What is stored -/

theorem filterMap_storeArgument (c : Class) :
    (c.initargs.map storeArgument).filterMap Plain.write? =
      c.properties.filterMap Property.stored? := by
  rw [initargs, List.filterMap_map, List.filterMap_filter]
  rfl

theorem filterMap_storeDefault (c : Class) :
    (c.properties.filterMap (storeDefault? t)).filterMap Plain.write? =
      c.properties.filterMap (Property.storedDefault? t) := by
  rw [List.filterMap_filterMap]
  congr 1
  funext p
  rw [storeDefault?, Property.storedDefault?]
  cases p.assignedDefault? t <;> rfl

theorem filterMap_parentCall (c : Class) :
    (c.parentCall? t).toList.filterMap Plain.write? = [] := by
  cases hparent : c.parentCall? t with
  | none => rfl
  | some q => rw [Option.toList_some, List.filterMap_cons, (layout_of_parentCall hparent).1,
      List.filterMap_nil]

/-- Without a constructor there is nothing to store. -/
theorem stored_of_constructor_none {c : Class} (h : c.constructor t = .ok none) :
    c.stored t = [] := by
  rw [constructor] at h
  split at h
  · next hempty =>
      rw [Bool.and_eq_true, List.isEmpty_iff, List.isEmpty_iff] at hempty
      rw [stored, ← filterMap_storeArgument, ← filterMap_storeDefault, hempty.1, hempty.2]
      rfl
  · obtain ⟨_, -, h⟩ := bind_eq_ok.1 h
    cases pure_eq_ok.1 h

/-- A constructor stores what there is to store, at least one value. -/
theorem stored_of_constructor {c : Class} {k : Constructor}
    (h : c.constructor t = .ok (some k)) :
    k.body.filterMap Plain.write? = c.stored t ∧ ∃ q ∈ k.body, q.hasCode = true := by
  rw [constructor] at h
  split at h
  · cases h
  · next hsome =>
      obtain ⟨_, -, h⟩ := bind_eq_ok.1 h
      cases pure_eq_ok.1 h
      constructor
      · rw [stored, List.filterMap_append, filterMap_storeDefault]
        cases t <;> simp only [List.filterMap_append, filterMap_storeArgument,
          filterMap_parentCall, List.append_nil, List.nil_append]
      · rw [Bool.and_eq_true, List.isEmpty_iff, List.isEmpty_iff, not_and_or] at hsome
        rcases hsome with hargument | hdefault
        · obtain ⟨p, hp⟩ := List.exists_mem_of_ne_nil _ hargument
          have hmem := List.mem_map_of_mem (f := storeArgument) hp
          refine ⟨storeArgument p, List.mem_append_left _ ?_, rfl⟩
          cases t
          · exact List.mem_append_left _ hmem
          · exact List.mem_append_right _ hmem
          · exact List.mem_append_left _ hmem
        · obtain ⟨q, hq⟩ := List.exists_mem_of_ne_nil _ hdefault
          refine ⟨q, List.mem_append_right _ hq, ?_⟩
          obtain ⟨p, -, hp⟩ := List.mem_filterMap.1 hq
          obtain ⟨e, -, rfl⟩ := Option.map_eq_some_iff.1 hp
          rfl

/-! ### The text of a constructor -/

/-- A constructor is written as the head of a function and its statements. -/
theorem exists_body {c : Class} {k : Constructor} (hk : c.constructor t = .ok (some k))
    {ls : List Layout} (h : k.layout t = .ok ls) :
    ∃ head inner, k.signature.head t = .ok head ∧ k.body.mapM (Plain.layout · t) = .ok inner ∧
      ls = head ++ .nest inner.flatten :: t.functionEnd := by
  obtain ⟨params, -, hsignature, -⟩ := exists_of_constructor hk
  obtain ⟨-, q, hq, hcode⟩ := stored_of_constructor hk
  cases t with
  | python =>
      obtain ⟨head, hhead, h⟩ := bind_eq_ok.1 h
      obtain ⟨_, hinner, h⟩ := bind_eq_ok.1 h
      obtain ⟨inner, hbody, hinner⟩ := bind_eq_ok.1 hinner
      cases pure_eq_ok.1 hinner
      cases pure_eq_ok.1 h
      have hany : k.body.any Plain.hasCode = true := List.any_eq_true.2 ⟨q, hq, hcode⟩
      have hsuite : k.signature.pythonSuite true inner.flatten = .nest inner.flatten := by
        rw [hsignature]
        exact congrArg Layout.nest (List.append_nil _)
      rw [hany, hsuite]
      exact ⟨head, inner, hhead, hbody, rfl⟩
  | typescript | php =>
      obtain ⟨head, hhead, h⟩ := bind_eq_ok.1 h
      obtain ⟨_, hinner, h⟩ := bind_eq_ok.1 h
      obtain ⟨inner, hbody, hinner⟩ := bind_eq_ok.1 hinner
      cases pure_eq_ok.1 hinner
      cases pure_eq_ok.1 h
      have hbraces : k.signature.bracedBody inner.flatten =
          [.nest inner.flatten, .line "\x7d"] := by
        rw [hsignature]
        rfl
      rw [hbraces]
      exact ⟨head, inner, hhead, hbody, rfl⟩

/-- Every statement of a constructor is written in one line. -/
theorem exists_steps {c : Class} {k : Constructor} (hk : c.constructor t = .ok (some k))
    {ls : List Layout} (h : k.layout t = .ok ls) :
    ∃ (head : List Layout) (steps : List ConstructorStep), k.signature.head t = .ok head ∧
      (∀ s ∈ steps, s.IsOf t c) ∧
      List.Forall₂ (Write.IsText t) (c.stored t) (steps.filterMap ConstructorStep.write?) ∧
      ls = head ++ .nest (steps.map (·.print t)) :: t.functionEnd := by
  obtain ⟨head, inner, hhead, hinner, rfl⟩ := exists_body hk h
  obtain ⟨steps, hsteps, rfl⟩ := exists_map_of_mapM_eq_ok hinner fun q hq ls => exists_step hk hq
  have hcalled := ((List.forall₂_and_left steps k.body).1 (List.Forall₂.flip hsteps)).1
  refine ⟨head, steps, hhead, hcalled, ?_, ?_⟩
  · rw [← (stored_of_constructor hk).1]
    exact List.rel_filterMap (fun _ _ h => h.2) hsteps
  · rw [← List.flatMap_def, ← List.map_eq_flatMap]

/-- The constructor of a class in one language, if the class needs one. -/
def constructorLayout (c : Class) (t : Target) : Except Error (List (List Layout)) := do
  let k ← c.constructor t
  match k with
  | none => return []
  | some k => do
    let lines ← k.layout t
    return [lines]

theorem constructorLayout_of_python {c : Class} {ls : List Layout}
    (h : c.pythonConstructor = .ok ls) :
    ∃ lss, c.constructorLayout .python = .ok lss ∧ ls = lss.flatten := by
  obtain ⟨k?, hk, h⟩ := bind_eq_ok.1 h
  rw [constructorLayout, hk, ok_bind]
  cases k? with
  | none =>
      cases pure_eq_ok.1 h
      exact ⟨[], rfl, rfl⟩
  | some k =>
      have hlines : (k.layout .python >>= fun lines => pure [lines]) = .ok [ls] := by
        have hk : k.toPython = .ok ls := h
        rw [Constructor.layout, hk, ok_bind]
        rfl
      exact ⟨[ls], hlines, (List.append_nil ls).symm⟩

/-- The constructor of a class is part of a description of the class, with any declarations that
have the right values. -/
theorem exists_constructor {c : Class} {lss : List (List Layout)}
    (h : c.constructorLayout t = .ok lss) {ds : List Declaration}
    (hds : List.Forall₂ (Declaration.IsOf t) c.properties ds) :
    ∃ w : Wiring, w.declarations = ds ∧ c.IsWired t w ∧ lss = w.constructed t := by
  have hinitial : List.Forall₂ (Write.IsText t) (c.properties.filterMap (Property.initial? t))
      (ds.filterMap Declaration.write?) := List.rel_filterMap (fun _ _ h => h.initial) hds
  obtain ⟨k?, hk, h⟩ := bind_eq_ok.1 h
  cases k? with
  | none =>
      cases pure_eq_ok.1 h
      have hnone := stored_of_constructor_none hk
      refine ⟨⟨ds, none⟩, rfl, ⟨hds, .inl ⟨rfl, hnone⟩, nofun, ?_⟩, rfl⟩
      rw [writes, hnone]
      exact List.rel_append hinitial .nil
  | some k =>
      obtain ⟨ls, hls, h⟩ := bind_eq_ok.1 h
      cases pure_eq_ok.1 h
      obtain ⟨params, hparams, hsignature, -⟩ := exists_of_constructor hk
      obtain ⟨head, steps, hhead, hcalled, hsteps, rfl⟩ := exists_steps hk hls
      rw [hsignature] at hhead
      exact ⟨⟨ds, some (head, steps)⟩, rfl,
        ⟨hds, .inr ⟨_, params, rfl, hparams, hhead⟩, hcalled, List.rel_append hinitial hsteps⟩,
        rfl⟩

/-- **The text of a class**: declarations of its properties and a constructor, with the values that
the class has for its properties. -/
theorem exists_wiring {c : Class} {methods : List Function} {ls : List Layout}
    (h : (Stmt.classDef c methods).layout t = .ok ls) :
    ∃ w ms, c.IsWired t w ∧ Function.layoutAll methods t = .ok ms ∧ ls = c.text t w ms := by
  cases t with
  | python =>
      rw [Stmt.layout, Stmt.toPython] at h
      obtain ⟨properties, hproperties, h⟩ := bind_eq_ok.1 h
      obtain ⟨constructor, hconstructor, h⟩ := bind_eq_ok.1 h
      obtain ⟨ms, hms, h⟩ := bind_eq_ok.1 h
      cases pure_eq_ok.1 h
      obtain ⟨ds, hds, rfl⟩ := exists_pythonDeclarations hproperties
      obtain ⟨lss, hlss, rfl⟩ := constructorLayout_of_python hconstructor
      obtain ⟨w, rfl, hw, rfl⟩ := exists_constructor hlss hds
      exact ⟨w, ms, hw, hms, rfl⟩
  | typescript =>
      rw [Stmt.layout, Stmt.toTypeScript] at h
      obtain ⟨properties, hproperties, h⟩ := bind_eq_ok.1 h
      obtain ⟨constructor, hconstructor, h⟩ := bind_eq_ok.1 h
      obtain ⟨ms, hms, h⟩ := bind_eq_ok.1 h
      cases pure_eq_ok.1 h
      obtain ⟨ds, hds, rfl⟩ := exists_typeScriptDeclarations hproperties
      obtain ⟨w, rfl, hw, rfl⟩ := exists_constructor (t := .typescript) hconstructor hds
      refine ⟨w, ms, hw, hms, ?_⟩
      rw [text, Wiring.declared, List.flatMap_def]
  | php =>
      rw [Stmt.layout, Stmt.toPhp] at h
      obtain ⟨properties, hproperties, h⟩ := bind_eq_ok.1 h
      obtain ⟨constructor, hconstructor, h⟩ := bind_eq_ok.1 h
      obtain ⟨ms, hms, h⟩ := bind_eq_ok.1 h
      cases pure_eq_ok.1 h
      obtain ⟨ds, hds, rfl⟩ := exists_phpDeclarations hproperties
      obtain ⟨w, rfl, hw, rfl⟩ := exists_constructor (t := .php) hconstructor hds
      refine ⟨w, ms, hw, hms, ?_⟩
      rw [text, Wiring.declared, List.flatMap_def]

end Class

end Polyglot
