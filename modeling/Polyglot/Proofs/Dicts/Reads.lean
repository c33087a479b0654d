import Polyglot.Proofs.Access.Fallback
import Polyglot.Proofs.Stmt.Render

/-!
# How TypeScript reads dicts and maps

The entries of a dict are properties of an object, those of a map are kept by an object of the class
`Map`, and each kind is read in forms of its own. A loop over entries is written in the form for
maps if the static type is a map, which a name for a map is not. An access by a key is written in
the form for dicts whatever the static type is.

* `Ty.container?` : whether a type is that of a dict or of a map, behind all names.
* `Source`, `Source.eval` : what a loop goes through, and the entries that it binds.
* `Expr.access`, `Container.property?` : accesses by a key, and what a key finds.
* `Expr.form_of_read` : **in which form entries are read**, and what that gives.
-/

set_option autoImplicit false

namespace Polyglot

open Outcome Lookup

/-! ## Dicts and maps -/

/-- What a value with entries is when the program runs: an object with the entries as its
properties, or an object of the class `Map`. -/
inductive Container where
  | dict
  | map
  deriving DecidableEq

namespace Ty

/-- Whether the type is that of a dict or of a map, behind all names. -/
def container? : Ty → Option Container
  | .alias _ base => base.container?
  | .dict _ _ => some .dict
  | .map _ _ => some .map
  | _ => none

/-- Whether the type is a name for another one. -/
def isAlias : Ty → Bool
  | .alias _ _ => true
  | _ => false

end Ty

/-- A value with entries. -/
inductive Entries where
  | dict (entries : List (String × Value))
  | map (entries : List (Value × Value))

namespace Entries

def container : Entries → Container
  | .dict _ => .dict
  | .map _ => .map

/-- The keys and values, in order. -/
def pairs : Entries → List (Value × Value)
  | .dict entries => entries.map fun e => (.str e.1, e.2)
  | .map entries => entries

/-- What the passes of a loop bind: the keys, if they have a name, and the values. -/
def passes (hasKey : Bool) (es : Entries) : List (Option Value × Value) :=
  es.pairs.map fun e => (if hasKey then some e.1 else none, e.2)

/-- The value as an object with properties. What a map keeps is no property of it. -/
def object : Entries → Value
  | .dict entries => .dict entries
  | .map _ => .dict []

/-- What a property access finds, where `members` are those that all objects of the kind have. -/
def property? (members : String → Option Value) (es : Entries) (key : String) : Option Value :=
  match es with
  | .dict entries => (entries.lookup key).or (members key)
  | .map _ => members key

end Entries

/-! ## Loops -/

/-- What a loop over entries goes through: the object itself, what its method `values` gives, or its
properties. -/
inductive Source where
  | object
  | values
  | propertyEntries
  | propertyValues

namespace Source

/-- The kind of value that the form is for. -/
def container : Source → Container
  | .object | .values => .map
  | .propertyEntries | .propertyValues => .dict

/-- How the form is written around an object. -/
def write (object : Code) : Source → String
  | .object => object.text
  | .values => object.base ++ ".values()"
  | .propertyEntries => "Object.entries(" ++ object.text ++ ")"
  | .propertyValues => "Object.values(" ++ object.text ++ ")"

/-- What the passes of the loop bind. An object that is no map cannot be gone through itself and has
no method `values`, and a map has no properties of its own. -/
def eval (es : Entries) : Source → Except Lookup.Fault (List (Option Value × Value))
  | .object => if es.container = .map then .ok (es.passes true) else .error .type
  | .values => if es.container = .map then .ok (es.passes false) else .error .type
  | .propertyEntries => .ok (if es.container = .dict then es.passes true else [])
  | .propertyValues => .ok (if es.container = .dict then es.passes false else [])

/-- The form of a loop, by whether it binds keys. -/
def ofLoop (hasKey : Bool) : Container → Source
  | .map => if hasKey then .object else .values
  | .dict => if hasKey then .propertyEntries else .propertyValues

theorem container_ofLoop (hasKey : Bool) (k : Container) : (ofLoop hasKey k).container = k := by
  cases k <;> cases hasKey <;> rfl

/-- A form binds all entries of the values that it is for. -/
theorem eval_ofLoop (hasKey : Bool) (es : Entries) :
    (ofLoop hasKey es.container).eval es = .ok (es.passes hasKey) := by
  cases es <;> cases hasKey <;> rfl

/-- The form for dicts binds nothing of a map. -/
theorem eval_ofLoop_dict (hasKey : Bool) {es : Entries} (h : es.container = .map) :
    (ofLoop hasKey .dict).eval es = .ok [] := by
  cases es with
  | dict _ => cases h
  | map _ => cases hasKey <;> rfl

end Source

/-- The names that a loop binds. -/
def Stmt.bound (value : String) : Option String → String
  | some key => "[" ++ key ++ ", " ++ value ++ "]"
  | none => value

namespace Expr

variable {e : Expr} {ty : Ty} {k : Container}

/-- The kind of value that loops take an expression for. -/
def loopContainer (e : Expr) : Container := if e.isMap then .map else .dict

/-- Loops take an expression for what it is, unless its type is a name for that of a map. -/
theorem loopContainer_eq (hty : e.typeOf = .ok ty) (hk : ty.container? = some k) :
    e.loopContainer = if ty.isAlias then .dict else k := by
  rw [loopContainer, isMap, hty]
  cases ty with
  | dict _ _ | map _ _ =>
      cases hk
      rfl
  | «alias» _ _ => rfl
  | _ => cases hk

/-- A loop over entries is written around the code of what it goes through. -/
theorem exists_of_forEntries {key : Option String} {value : String} {body : Body}
    {ls : List Layout} (h : (Stmt.forEntries key value e body).layout .typescript = .ok ls) :
    ∃ c inner, e.render .typescript = .ok c ∧ body.layout .typescript = .ok inner ∧
      ls = [.line ("for (let " ++ Stmt.bound value key ++ " of " ++
        (Source.ofLoop key.isSome e.loopContainer).write c ++ ") \x7b"), .nest inner,
        .line "\x7d", .blank] := by
  obtain ⟨c, hc, h⟩ := bind_eq_ok.1 h
  obtain ⟨inner, hinner, h⟩ := bind_eq_ok.1 h
  cases pure_eq_ok.1 h
  refine ⟨c, inner, hc, hinner, ?_⟩
  rw [loopContainer]
  cases key <;> cases e.isMap <;> rfl

/-! ## Accesses by a key -/

/-- An access by a key, with what to take if there is nothing, or without. -/
def access (e key : Expr) : Option Expr → Expr
  | none => .item .key e key
  | some fallback => .itemOr .key e key fallback

/-- The code that an access is made of. -/
def accessTerm (fallback : Option Expr) : Term :=
  if fallback.isSome then term .typescript .key else .subscript .target .key

/-- An access is written as its code around the code of its operands. -/
theorem exists_of_access {key : Expr} {fallback : Option Expr} {r : Code}
    (h : (e.access key fallback).render .typescript = .ok r) :
    ∃ a c f, e.render .typescript = .ok a ∧ key.render .typescript = .ok c ∧
      r.text = (accessTerm fallback).write .typescript (Slot.pick a c f) := by
  cases fallback with
  | none =>
      obtain ⟨a, ha, h⟩ := bind_eq_ok.1 h
      obtain ⟨c, hc, h⟩ := bind_eq_ok.1 h
      cases pure_eq_ok.1 h
      exact ⟨a, c, a, ha, hc, rfl⟩
  | some fallback =>
      obtain ⟨a, c, f, ha, hc, -, htext⟩ := exists_codes h
      exact ⟨a, c, f, ha, hc, htext⟩

/-- An access gives the property that it finds, or else what is to be taken then. -/
theorem eval_accessTerm (members : String → Option Value) (es : Entries) (key : String)
    (fallback : Option Expr) (other : Result) :
    (accessTerm fallback).eval .typescript members
        (Slot.pick (.ok es.object) (.ok (.str key)) other) =
      (let found := (es.property? members key).getD .omitted
      if fallback.isSome && found.isOmitted then other else .ok found) := by
  have hfound : subscript .typescript members es.object (.str key) =
      .ok ((es.property? members key).getD .omitted) := by cases es <;> rfl
  cases fallback with
  | none => exact hfound
  | some _ => exact eval_typeScript .key hfound

/-! ## All reads -/

/-- **In which form TypeScript reads** entries of an expression whose type is that of a dict or a
map, behind all names. A loop is written in the form for its kind, and binds all entries, unless the
type is a name for that of a map: then it is written in the form for dicts and binds nothing. An
access by a key is written as one to a property whatever the kind is, and what a map keeps is no
property of it. -/
theorem form_of_read (hty : e.typeOf = .ok ty) (hk : ty.container? = some k) :
    (∀ (key : Option String) (value : String) (body : Body) (ls : List Layout),
      (Stmt.forEntries key value e body).layout .typescript = .ok ls →
      ∃ (c : Code) (inner : List Layout) (s : Source), e.render .typescript = .ok c ∧
        body.layout .typescript = .ok inner ∧
        ls = [.line ("for (let " ++ Stmt.bound value key ++ " of " ++ s.write c ++ ") \x7b"),
          .nest inner, .line "\x7d", .blank] ∧
        (s.container = k ↔ k = .dict ∨ ty.isAlias = false) ∧
        ∀ es : Entries, es.container = k →
          s.eval es = .ok (if s.container = k then es.passes key.isSome else [])) ∧
    ∀ (key : Expr) (fallback : Option Expr) (r : Code),
      (e.access key fallback).render .typescript = .ok r →
      ∃ a c f, e.render .typescript = .ok a ∧ key.render .typescript = .ok c ∧
        r.text = (accessTerm fallback).write .typescript (Slot.pick a c f) ∧
        ∀ (members : String → Option Value) (es : Entries) (name : String) (other : Result),
          (accessTerm fallback).eval .typescript members
              (Slot.pick (.ok es.object) (.ok (.str name)) other) =
            (let found := (es.property? members name).getD .omitted
            if fallback.isSome && found.isOmitted then other else .ok found) := by
  refine ⟨fun key value body ls h => ?_, fun key fallback r h => ?_⟩
  · obtain ⟨c, inner, hc, hinner, hls⟩ := exists_of_forEntries h
    refine ⟨c, inner, _, hc, hinner, hls, ?_, fun es hes => ?_⟩
    · rw [Source.container_ofLoop, loopContainer_eq hty hk]
      cases k <;> cases ty.isAlias <;> simp
    · rw [Source.container_ofLoop]
      split
      · next heq => rw [heq, ← hes, Source.eval_ofLoop]
      · next hne =>
          -- The forms differ, so the one for dicts is written for a map.
          cases k with
          | dict =>
              rw [loopContainer_eq hty hk] at hne
              exact absurd (ite_self _) hne
          | map =>
              have hdict : e.loopContainer = .dict := by
                cases hloop : e.loopContainer with
                | dict => rfl
                | map => exact absurd hloop hne
              rw [hdict, Source.eval_ofLoop_dict key.isSome hes]
  · obtain ⟨a, c, f, ha, hc, htext⟩ := exists_of_access h
    exact ⟨a, c, f, ha, hc, htext, fun members es name other =>
      eval_accessTerm members es name fallback other⟩

/-- A loop over a variable with the type of a map goes through the map itself. -/
theorem form_of_read_map :
    let m : Expr := .var "m" (some (.map .str .num))
    let ages : Entries := .map [(.str "Ada", .int 36)]
    m.typeOf = .ok (.map .str .num) ∧ (Ty.map .str .num).container? = some .map ∧
      ∃ ls, (Stmt.forEntries (some "k") "v" m .empty).layout .typescript = .ok ls ∧
        ∃ (c : Code) (inner : List Layout) (s : Source),
          ls = [.line ("for (let [k, v] of " ++ s.write c ++ ") \x7b"), .nest inner, .line "\x7d",
            .blank] ∧
          s.container = .map ∧ s.eval ages = .ok [(some (.str "Ada"), .int 36)] := by
  intro m ages
  have hty : m.typeOf = .ok (.map .str .num) := rfl
  obtain ⟨ls, hls⟩ : ∃ ls, (Stmt.forEntries (some "k") "v" m .empty).layout .typescript = .ok ls :=
    ⟨_, rfl⟩
  obtain ⟨c, inner, s, -, -, htext, hform, heval⟩ :=
    (form_of_read hty rfl).1 (some "k") "v" .empty ls hls
  have hmap : s.container = .map := hform.2 (.inr rfl)
  have hpasses := heval ages rfl
  rw [if_pos hmap] at hpasses
  exact ⟨hty, rfl, ls, hls, c, inner, s, htext, hmap, hpasses⟩

/-- The entry of a map is not found by its key, and a loop over a value whose type is a name for
that of a map does not find any. -/
theorem reads_of_map_find_nothing :
    let m : Expr := .var "m" (some (.map .str .num))
    let named : Expr := .var "m" (some (.alias "Ages" (.map .str .num)))
    let ages : Entries := .map [(.str "Ada", .int 36)]
    (m.access (.literal (.str "Ada")) none).render .typescript = .ok ⟨"m['Ada']", .access⟩ ∧
      (accessTerm none).eval .typescript (fun _ => none)
        (Slot.pick (.ok ages.object) (.ok (.str "Ada")) (.ok .null)) = .ok .omitted ∧
      (Stmt.forEntries (some "k") "v" named .empty).layout .typescript =
        .ok [.line "for (let [k, v] of Object.entries(m)) \x7b", .nest [], .line "\x7d", .blank] ∧
      Source.propertyEntries.eval ages = .ok [] :=
  ⟨rfl, rfl, rfl, rfl⟩

end Expr

end Polyglot
