import Polyglot.Proofs.Building.Invariants

/-!
# Parameters that are taken

A function gets its parameters and its overloads by edits, one after the other, some of which may be
refused. What it has in the end are those of the edits that were not refused, in their order.

* `Signature.run`, `Function.run` : a function after edits.
* `Signature.taken` : the edits that are not refused.
* `Signature.AddedTo` : what edits add to a signature.
* `Signature.addedTo_taken` : **the parameters and overloads of a function** are those of the edits
  that are taken.
-/

set_option autoImplicit false

namespace Polyglot

open Outcome

/-- The parameter that a description stands for, if it is taken. -/
def ParamSpec.described (spec : ParamSpec) : Param where
  name := spec.name
  ty := spec.widened
  default := if spec.omittable then some (spec.default.getD .omit) else spec.default

theorem ParamSpec.eq_described_of_build {spec : ParamSpec} {p : Param} (h : spec.build = .ok p) :
    p = spec.described := by
  obtain ⟨name, ty, default, nullable, omittable⟩ := spec
  cases omittable with
  | true => cases default <;> (cases h; rfl)
  | false =>
      cases default with
      | none =>
          cases h
          rfl
      | some e => cases e <;> first | (cases h; rfl) | cases h

namespace Signature

/-- The parameter that an edit gives by position. -/
def Edit.positional? : Edit → Option ParamSpec
  | .positional spec => some spec
  | _ => none

/-- The parameter that an edit gives by name. -/
def Edit.keyword? : Edit → Option ParamSpec
  | .keyword spec => some spec
  | _ => none

/-- The overload that an edit adds. -/
def Edit.overload? : Edit → Option Overload
  | .overload o => some o
  | _ => none

/-- The signature after edits one after the other. Edits that are refused do not end the
sequence. -/
def run (s : Signature) (es : List Edit) : Signature := es.foldl (fun s e => (s.edit e).1) s

/-- The edits that are not refused. -/
def taken (s : Signature) : List Edit → List Edit
  | [] => []
  | e :: es =>
    match (s.edit e).2 with
    | .ok () => e :: (s.edit e).1.taken es
    | .error _ => (s.edit e).1.taken es

/-- A signature that has the parameters and overloads of another one and those that edits add. -/
structure AddedTo (s : Signature) (es : List Edit) (s' : Signature) : Prop where
  positional :
    s'.positional = s.positional ++ (es.filterMap Edit.positional?).map ParamSpec.described
  keyword : s'.keyword = s.keyword ++ (es.filterMap Edit.keyword?).map ParamSpec.described
  overloads : s'.overloads = s.overloads ++ es.filterMap Edit.overload?
  isMethod : s'.isMethod = s.isMethod

variable {s s' s'' : Signature} {es es' : List Edit}

theorem AddedTo.refl (s : Signature) : s.AddedTo [] s where
  positional := (List.append_nil _).symm
  keyword := (List.append_nil _).symm
  overloads := (List.append_nil _).symm
  isMethod := rfl

theorem AddedTo.trans (h : s.AddedTo es s') (h' : s'.AddedTo es' s'') :
    s.AddedTo (es ++ es') s'' where
  positional := by
    rw [h'.positional, h.positional, List.filterMap_append, List.map_append, List.append_assoc]
  keyword := by
    rw [h'.keyword, h.keyword, List.filterMap_append, List.map_append, List.append_assoc]
  overloads := by rw [h'.overloads, h.overloads, List.filterMap_append, List.append_assoc]
  isMethod := h'.isMethod.trans h.isMethod

/-- An edit that is refused changes nothing. -/
theorem edit_of_error {e : Edit} {err : Error} (h : (s.edit e).2 = .error err) :
    (s.edit e).1 = s := by
  have hsame : ∀ {x : Except Error Signature}, (editTo s x).2 = .error err →
      (editTo s x).1 = s := by
    intro x hx
    cases x with
    | ok s' => cases hx
    | error _ => rfl
  cases e with
  | setAbstract | setStatic | setAsync | docstring | pythonDecorator | typeScriptDecorator =>
      cases h
  | positional | keyword | overload => exact hsame h

/-- What an edit gives that is taken. -/
theorem of_editTo {P : Signature → Prop} {x : Except Error Signature}
    (h : (editTo s x).2 = .ok ()) (hnew : ∀ s', x = .ok s' → P s') : P (editTo s x).1 := by
  cases x with
  | ok s' => exact hnew s' rfl
  | error err => cases h

/-- An edit that is taken adds what it describes. -/
theorem addedTo_edit {e : Edit} (h : (s.edit e).2 = .ok ()) : s.AddedTo [e] (s.edit e).1 := by
  cases e with
  | setAbstract | setStatic | setAsync | docstring | pythonDecorator | typeScriptDecorator =>
      exact ⟨(List.append_nil _).symm, (List.append_nil _).symm, (List.append_nil _).symm, rfl⟩
  | positional spec =>
      refine of_editTo h fun s' hs' => ?_
      obtain ⟨p, hbuild, -, rfl⟩ := exists_of_add hs'
      rw [ParamSpec.eq_described_of_build hbuild]
      exact ⟨rfl, (List.append_nil _).symm, (List.append_nil _).symm, rfl⟩
  | keyword spec =>
      refine of_editTo h fun s' hs' => ?_
      obtain ⟨p, hbuild, -, rfl⟩ := exists_of_add hs'
      rw [ParamSpec.eq_described_of_build hbuild]
      exact ⟨(List.append_nil _).symm, rfl, (List.append_nil _).symm, rfl⟩
  | overload o =>
      refine of_editTo h fun s' hs' => ?_
      unfold addOverload at hs'
      split at hs'
      · cases hs'
      · cases hs'
        exact ⟨(List.append_nil _).symm, (List.append_nil _).symm, rfl, rfl⟩

/-- **What edits add** to a signature are the parameters and overloads of those that are taken. -/
theorem addedTo_taken (s : Signature) (es : List Edit) : s.AddedTo (s.taken es) (s.run es) := by
  induction es generalizing s with
  | nil => exact .refl s
  | cons e es ih =>
      have hrest := ih (s.edit e).1
      cases he : (s.edit e).2 with
      | ok u =>
          have htaken : s.taken (e :: es) = e :: (s.edit e).1.taken es := by rw [taken, he]
          rw [htaken]
          exact (addedTo_edit he).trans hrest
      | error err =>
          have htaken : s.taken (e :: es) = (s.edit e).1.taken es := by rw [taken, he]
          rw [htaken]
          rw [edit_of_error he] at hrest ⊢
          have hrun : s.run (e :: es) = s.run es := by
            rw [run, List.foldl_cons, edit_of_error he]
            rfl
          rw [hrun]
          exact hrest

end Signature

namespace Function

/-- The edit of the signature, if the edit is one. -/
def Edit.signature? : Edit → Option Signature.Edit
  | .signature e => some e
  | .body _ => none

/-- The function after edits one after the other. Edits that are refused do not end the sequence. -/
def run (f : Function) (es : List Edit) : Function := es.foldl (fun f e => (f.edit e).1) f

/-- The signature of a function does not depend on its statements. -/
theorem signature_run (f : Function) (es : List Edit) :
    (f.run es).signature = f.signature.run (es.filterMap Edit.signature?) := by
  induction es generalizing f with
  | nil => rfl
  | cons e es ih => cases e <;> exact ih _

/-- A function or method without parameters and statements. -/
def begin (isMethod : Bool) (name : String) (result : Option Ty) : Function :=
  ⟨if isMethod then .method name result else .function name result, .empty⟩

end Function

end Polyglot
