import Polyglot.Proofs.Text.Quoted
import Polyglot.Proofs.Ty.Expressible

/-!
# Annotations that are written as strings

Python writes a generic type as its name with its arguments in brackets, and a function type with
its parameters in brackets of their own. An annotation has to be written as a string if a name in it
may be missing where the code runs, however deep inside the annotation the name stands.

* `Ty.genericName?`, `Ty.toPython_generic`, `Ty.toPython_callable` : how types with parts are
  written.
* `Ty.IsDeferred` : the types that may be missing where the code runs.
* `Ty.quoted_iff_parts`, `Ty.quoted_iff_written` : the need for a string, for one type and its parts
  and at any depth.
* `Ty.quoted_iff_and_read` : **when an annotation is written as a string, and what the string
  reads.**
-/

set_option autoImplicit false

namespace Polyglot.Ty

open Outcome

variable {ty : Ty} {a : Annotation}

/-! ## Types with parts -/

/-- The name of a generic type. -/
def genericName? : Ty → Option String
  | .optional _ => some "Optional"
  | .list _ => some "List"
  | .set _ => some "Set"
  | .dict _ _ => some "Dict"
  | .map _ _ => some "Mapping"
  | .union _ => some "Union"
  | .any | .str | .num | .bool | .null | .omit | .literal _ | .callable _ _ | .alias _ _ | .custom _
  | .python _ _ | .typescript _ => none

/-- A generic type is written as its name and its parts. -/
theorem toPython_generic {name : String} (hname : ty.genericName? = some name)
    (h : ty.toPython = .ok a) :
    ∃ args, (ty.parts .python).mapM toPython = .ok args ∧ a = .generic name args := by
  cases ty with
  | any | str | num | bool | null | «omit» | literal | callable | «alias» | custom | python
  | typescript => cases hname
  | optional inner | list inner | set inner =>
      cases hname
      obtain ⟨i, hi, h⟩ := bind_eq_ok.1 h
      cases pure_eq_ok.1 h
      refine ⟨[i], ?_, rfl⟩
      show [inner].mapM toPython = _
      rw [List.mapM_cons, hi]
      rfl
  | dict key value | map key value =>
      cases hname
      obtain ⟨k, hk, h⟩ := bind_eq_ok.1 h
      obtain ⟨v, hv, h⟩ := bind_eq_ok.1 h
      cases pure_eq_ok.1 h
      refine ⟨[k, v], ?_, rfl⟩
      show [key, value].mapM toPython = _
      rw [List.mapM_cons, hk, List.mapM_cons, hv]
      rfl
  | union members =>
      cases hname
      cases members with
      | nil => cases h
      | cons member members =>
          obtain ⟨ms, hms, h⟩ := bind_eq_ok.1 h
          cases pure_eq_ok.1 h
          rw [toPythonAll_eq_mapM] at hms
          exact ⟨ms, hms, rfl⟩

/-- A function type is written as its parameters and its result. -/
theorem toPython_callable {params : List Ty} {result : Ty}
    (h : (Ty.callable params result).toPython = .ok a) :
    ∃ ps r, params.mapM toPython = .ok ps ∧ result.toPython = .ok r ∧
      a = ⟨"Callable[[" ++ Annotation.commas ps ++ "], " ++ r.text ++ "]",
        ps.any Annotation.quoted || r.quoted⟩ := by
  obtain ⟨ps, hps, h⟩ := bind_eq_ok.1 h
  obtain ⟨r, hr, h⟩ := bind_eq_ok.1 h
  cases pure_eq_ok.1 h
  rw [toPythonAll_eq_mapM] at hps
  exact ⟨ps, r, hps, hr, rfl⟩

/-! ## The need for a string -/

/-- The type is written with a name that may be missing where the code runs: the sentinel's type, or
a type that the caller spells and does not say that it is there. -/
def IsDeferred : Ty → Prop
  | .omit | .custom _ => True
  | .python _ quoted => quoted = true
  | .any | .str | .num | .bool | .null | .literal _ | .optional _ | .list _ | .set _ | .dict _ _
  | .map _ _ | .union _ | .callable _ _ | .alias _ _ | .typescript _ => False

/-- Some annotation in a list has to be written as a string just if one of the types has one that
has to be. -/
theorem any_quoted_iff {tys : List Ty} {as : List Annotation} (h : tys.mapM toPython = .ok as) :
    as.any Annotation.quoted = true ↔ ∃ ty ∈ tys, ∃ a, ty.toPython = .ok a ∧ a.quoted = true := by
  rw [List.any_eq_true]
  constructor
  · rintro ⟨a, ha, hquoted⟩
    obtain ⟨ty, hty, hwritten⟩ :=
      forall_mem_of_mapM_eq_ok (P := fun a => ∃ ty ∈ tys, ty.toPython = .ok a) h
        (fun ty hty _ hwritten => ⟨ty, hty, hwritten⟩) a ha
    exact ⟨ty, hty, a, hwritten, hquoted⟩
  · rintro ⟨ty, hty, a, hwritten, hquoted⟩
    exact ⟨a, mem_of_mapM_eq_ok h hty hwritten, hquoted⟩

/-- An annotation has to be written as a string for its own sake or for the sake of a part. -/
theorem quoted_iff_parts (h : ty.toPython = .ok a) :
    a.quoted = true ↔
      ty.IsDeferred ∨ ∃ part ∈ ty.parts .python, ∃ p, part.toPython = .ok p ∧ p.quoted = true := by
  cases ty with
  | any | str | num | bool | null | literal | «alias» =>
      cases h
      simp [IsDeferred, parts]
  | «omit» =>
      cases h
      simp [IsDeferred]
  | optional | list | set | dict | map | union =>
      obtain ⟨args, hargs, rfl⟩ := toPython_generic rfl h
      rw [IsDeferred, false_or]
      exact any_quoted_iff hargs
  | callable params result =>
      obtain ⟨ps, r, hps, hr, rfl⟩ := toPython_callable h
      have hresult : r.quoted = true ↔ ∃ p, result.toPython = .ok p ∧ p.quoted = true := by
        rw [hr]
        simp
      rw [Bool.or_eq_true, any_quoted_iff hps, hresult]
      simp [IsDeferred, parts, or_and_right, exists_or]
  | custom spelling =>
      obtain ⟨python, typescript, php, imports⟩ := spelling
      cases python with
      | none => cases h
      | some text =>
          cases h
          simp [IsDeferred]
  | python text quoted =>
      cases h
      simp [IsDeferred, parts]
  | typescript text => cases h

/-- An annotation has to be written as a string just if something in it, at any depth, is written
with a name that may be missing. -/
theorem quoted_iff_written (h : ty.toPython = .ok a) :
    a.quoted = true ↔ ∃ node : Ty, node.WrittenIn .python ty ∧ node.IsDeferred := by
  induction ty using induction_on_parts .python generalizing a with
  | step ty ih =>
      rw [quoted_iff_parts h]
      constructor
      · rintro (hself | ⟨part, hpart, p, hp, hquoted⟩)
        · exact ⟨ty, .self ty, hself⟩
        · obtain ⟨node, hnode, hdeferred⟩ := (ih part hpart hp).1 hquoted
          exact ⟨node, .part hpart hnode, hdeferred⟩
      · rintro ⟨node, hnode, hdeferred⟩
        rcases writtenIn_iff.1 hnode with rfl | ⟨part, hpart, hinner⟩
        · exact .inl hdeferred
        · obtain ⟨p, hp⟩ := ((renders_iff_parts ty .python).1 ⟨a, h⟩).2 part hpart
          exact .inr ⟨part, hpart, p, hp, (ih part hpart hp).2 ⟨node, hinner, hdeferred⟩⟩

theorem isDeferred_iff : ty.IsDeferred ↔
    ty = .omit ∨ (∃ spelling, ty = .custom spelling) ∨ ∃ text, ty = .python text true := by
  cases ty <;> simp [IsDeferred]

/-- **Annotations as strings.** An annotation has to be written as a string just if, anywhere but
below a named type, it is written with the sentinel's type, with a type that the caller spells for
each language, or with one that the caller says has to be quoted. An annotation that does not have
to be is written as it is; one that has to be is written as a string literal that is read back to
the annotation, whatever the annotation holds and whatever stands behind it. -/
theorem quoted_iff_and_read (h : ty.toPython = .ok a) :
    (a.quoted = true ↔ ∃ node : Ty, node.WrittenIn .python ty ∧
      (node = .omit ∨ (∃ spelling, node = .custom spelling) ∨ ∃ text, node = .python text true)) ∧
    (a.quoted = false → ty.pythonText = .ok a.text) ∧
    (a.quoted = true → ∃ literal : String, ty.pythonText = .ok literal ∧
      ∀ rest, Text.Quoted.read (literal.toList ++ rest) = some (a.text.toList, rest)) := by
  have hwritten : ty.pythonText = .ok a.written := by
    rw [pythonText, h]
    rfl
  refine ⟨?_, fun hplain => ?_, fun hquoted => ⟨a.written, hwritten, fun rest => ?_⟩⟩
  · simp only [← isDeferred_iff]
    exact quoted_iff_written h
  · rw [hwritten, Annotation.written, hplain]
    rfl
  · unfold Annotation.written
    rw [if_pos hquoted, Text.Quoted.encode, String.toList_ofList]
    exact Text.Quoted.read_encodeChars a.text.toList rest

/-- A function type with a literal type that holds both quotes and a backslash, and with a type of
the caller's in its result, is written as a string. A name for the sentinel's type is not. -/
theorem read_quoted_function :
    let ty : Ty := .callable [.alias "Id" .omit, .list (.literal (.ofList [.str "it's \"\\\""]))]
      (.optional (.custom ⟨some "m.Foo['x']", none, none, []⟩))
    let text := "Callable[[Id, List[Literal['it\\'s \"\\\\\"']]], Optional[m.Foo['x']]]"
    ty.toPython = .ok ⟨text, true⟩ ∧
      (∃ literal : String, ty.pythonText = .ok literal ∧
        Text.Quoted.read literal.toList = some (text.toList, [])) ∧
      (Ty.list (.alias "Id" .omit)).toPython = .ok ⟨"List[Id]", false⟩ ∧
      (Ty.list (.alias "Id" .omit)).pythonText = .ok "List[Id]" := by
  intro ty text
  have htext : ty.toPython = .ok ⟨text, true⟩ := rfl
  obtain ⟨literal, hliteral, hread⟩ := (quoted_iff_and_read htext).2.2 rfl
  have hplain : (Ty.list (.alias "Id" .omit)).toPython = .ok ⟨"List[Id]", false⟩ := rfl
  refine ⟨htext, ⟨literal, hliteral, ?_⟩, hplain, (quoted_iff_and_read hplain).2.1 rfl⟩
  simpa using hread []

end Polyglot.Ty
