import Polyglot.Proofs.Stmt.Constructor
import Polyglot.Proofs.Writer.Appends
import Polyglot.Stmt.Braced
import Polyglot.Writer.Braced

/-!
# What is written with braces

What the languages with braces have in common: a function without statements is written only as far
as its head, and empty lines stand between the members of a class.

* `Signature.writes_braced` : what stands behind the parameters of a function.
* `Class.writes_braced` : a class around its members.
-/

set_option autoImplicit false

namespace Polyglot

open Outcome WriteM

/-- Statements are only refused where a function is abstract. -/
theorem Signature.isEmpty_of_checkBody {s : Signature} {isEmpty : Bool} {u : Unit}
    (h : s.checkBody isEmpty = .ok u) (habstract : s.isAbstract = true) : isEmpty = true := by
  cases isEmpty with
  | true => rfl
  | false =>
      rw [checkBody, habstract] at h
      cases h

/-- A function behind its parameters, where one that is abstract has no statements. -/
theorem Signature.writes_braced (s : Signature) {isEmpty : Bool} {u : Unit} {result : String}
    {block : WriteM Unit} {x : Except Error (List Layout)} (hblock : Writes block () x)
    (hempty : isEmpty = true → x = .ok []) (hcheck : s.checkBody isEmpty = .ok u) :
    Writes (s.writeBraced result block) () (do
      let inner ← x
      return .line (")" ++ result ++ (if s.isAbstract then ";" else " \x7b")) ::
        s.bracedBody inner) := by
  simp only [writeBraced, bracedBody]
  cases habstract : s.isAbstract with
  | true =>
      rw [hempty (isEmpty_of_checkBody hcheck habstract)]
      exact .line0 _
  | false =>
      exact .of_follows <| .lines (.line0 _) <| .nested hblock fun _ _ => .lastLines (.line0 _) rfl

/-- Groups behind other groups stand behind an empty line if there is any of those. -/
theorem Layout.spaced_append (started : Bool) (groups groups' : List (List Layout)) :
    spaced started (groups ++ groups') =
      spaced started groups ++ spaced (started || !groups.isEmpty) groups' := by
  induction groups generalizing started with
  | nil => rw [List.isEmpty_nil, Bool.not_true, Bool.or_false, spaced, List.nil_append,
      List.nil_append]
  | cons group groups ih =>
      rw [List.cons_append, spaced, ih, spaced, List.isEmpty_cons]
      simp only [Bool.true_or, Bool.not_false, Bool.or_true, List.append_assoc]

namespace Class

variable {c : Class} {t : Target} {property : Property → WriteM Unit}
  {construct : Constructor → WriteM Unit} {propertyLines : Property → Except Error (List Layout)}
  {constructorLines : Constructor → Except Error (List Layout)}

/-- The lines of the constructor of a class, if it needs one. -/
def bracedConstructor (c : Class) (t : Target)
    (constructorLines : Constructor → Except Error (List Layout)) :
    Except Error (List (List Layout)) := do
  let k ← c.constructor t
  match k with
  | none => return []
  | some k => do
    let lines ← constructorLines k
    return [lines]

/-- A constructor stands below properties. -/
theorem started_of_bracedConstructor {lss : List (List Layout)}
    (h : c.bracedConstructor t constructorLines = .ok lss) :
    (!c.properties.isEmpty || !lss.isEmpty) = !c.properties.isEmpty := by
  obtain ⟨k, hk, h⟩ := bind_eq_ok.1 h
  cases k with
  | none =>
      cases h
      exact Bool.or_false _
  | some k => simp [properties_ne_nil_of_constructor hk]

theorem writes_bracedMembers (hproperty : ∀ p, Writes (property p) () (propertyLines p))
    (hconstruct : ∀ k, c.constructor t = .ok (some k) →
      Writes (construct k) () (constructorLines k)) :
    Writes (c.writeBracedMembers t property construct) (!c.properties.isEmpty) (do
      let properties ← c.properties.mapM propertyLines
      let constructor ← c.bracedConstructor t constructorLines
      return properties.flatten ++ Layout.spaced (!c.properties.isEmpty) constructor) := by
  refine .of_follows <| .stepOf (.forM hproperty _) fun properties _ => ?_
  rw [bracedConstructor, bind_assoc]
  refine .lift fun k hk => ?_
  cases k with
  | none => exact .pure (by simp [Layout.spaced])
  | some k =>
      have hstarted : (!c.properties.isEmpty) = true := by
        simp [properties_ne_nil_of_constructor hk]
      rw [hstarted]
      simp only [bind_assoc, pure_bind]
      exact .lines (.when .blankLine _) <| .step (hconstruct k hk) fun _ _ =>
        .pure (by simp [Layout.spaced])

/-- A class is written around its members. -/
theorem writes_braced (hproperty : ∀ p, Writes (property p) () (propertyLines p))
    (hconstruct : ∀ k, c.constructor t = .ok (some k) →
      Writes (construct k) () (constructorLines k))
    {methods : Bool → WriteM Unit} {methodLines : Except Error (List (List Layout))}
    (hmethods : ∀ needBlank, Writes (methods needBlank) () (do
      let lss ← methodLines
      return Layout.spaced needBlank lss)) (head : String) :
    Writes (c.writeBraced head (c.writeBracedMembers t property construct) methods) () (do
      let properties ← c.properties.mapM propertyLines
      let constructor ← c.bracedConstructor t constructorLines
      let ms ← methodLines
      let members := Layout.spaced (!c.properties.isEmpty) (constructor ++ ms)
      let remarks := c.remarks.map fun r => .line ("// " ++ r)
      return Layout.docBlock c.docstring ++
        [.line head, .nest (properties.flatten ++ members ++ remarks), .line "\x7d"]) := by
  have hinner : Writes (do
      let needBlank ← c.writeBracedMembers t property construct
      methods needBlank
      c.remarks.forM fun r => line0 ("// " ++ r)) () (do
      let above ← (do
        let properties ← c.properties.mapM propertyLines
        let constructor ← c.bracedConstructor t constructorLines
        return properties.flatten ++ Layout.spaced (!c.properties.isEmpty) constructor :
          Except Error (List Layout))
      let ms ← methodLines
      return above ++ Layout.spaced (!c.properties.isEmpty) ms ++
        c.remarks.map fun r => .line ("// " ++ r)) :=
    .of_follows <| .step (writes_bracedMembers hproperty hconstruct) fun _ _ =>
      .stepOf (hmethods _) fun _ _ => .lastLines (.forM_line0 _ _) rfl
  refine .congr (.of_follows <| .lines (.docBlock _) <| .lines (.line0 _) <|
    .nested hinner fun inner _ => .lastLines (.line0 _) rfl) ?_
  cases c.properties.mapM propertyLines with
  | error e => rfl
  | ok properties =>
      cases hctor : c.bracedConstructor t constructorLines with
      | error e => rfl
      | ok ctor =>
          simp only [ok_bind, bind_assoc, pure_bind, Layout.spaced_append,
            started_of_bracedConstructor hctor, List.nil_append, List.append_assoc]
          rfl

end Class

end Polyglot
