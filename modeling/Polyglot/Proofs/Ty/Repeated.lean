import Mathlib.Logic.Function.Iterate
import Polyglot.Proofs.Ty.Alternatives
import Polyglot.Proofs.Ty.Expressible
import Polyglot.Stmt.Function

/-!
# Types that are widened again

Widening by null leaves an optional type as it is, and a union gains a member each time that it is
widened, also if it has that member already. So a type that is widened once more accepts nothing
more, but a union is written with the same alternative once more.

* `Ty.iterate_union`, `Ty.alternatives_iterate` : widening a union any number of times.
* `Ty.text`, `Target.unionText`, `Ty.text_union` : how a language writes the members of a union.
* `Ty.widened_of_union` : parameters that are declared with unions.
* `Ty.union_widened_twice` : a union that is written with an alternative twice.
* `Ty.widened_again` : **what widening a type again changes**, and what it does not.
-/

set_option autoImplicit false

namespace Polyglot

open Outcome

/-- How a language puts the texts of the members of a union together. -/
def Target.unionText (ss : List String) : Target → String
  | .python => "Union[" ++ ", ".intercalate ss ++ "]"
  | .typescript => " | ".intercalate ss
  | .php => "|".intercalate ss

namespace Ty

variable {t : Target} {widened : Ty → Ty} {a : Ty}

/-! ## Unions -/

/-- A widening that adds a member to every union adds it as often as it is repeated. -/
theorem iterate_union (hstep : ∀ members, widened (.union members) = .union (members ++ [a]))
    (members : List Ty) (n : Nat) :
    widened^[n] (.union members) = .union (members ++ List.replicate n a) := by
  induction n with
  | zero => rw [Function.iterate_zero_apply, List.replicate_zero, List.append_nil]
  | succ n ih =>
      rw [Function.iterate_succ_apply', ih, hstep, List.append_assoc, ← List.replicate_succ']

/-- A widening that adds an alternative adds no more when it is repeated. -/
theorem alternatives_iterate
    (hstep : ∀ ty : Ty, (widened ty).alternatives = insert a ty.alternatives) (ty : Ty) (n : Nat) :
    (widened^[n + 1] ty).alternatives = (widened ty).alternatives := by
  induction n with
  | zero => rfl
  | succ n ih => rw [Function.iterate_succ_apply', hstep, ih, hstep, Finset.insert_idem]

/-- The sentinel's type is added to a union, which any other type becomes first. -/
theorem exists_orOmit_eq_union (ty : Ty) : ∃ members, ty.orOmit = .union members := by
  cases ty <;> exact ⟨_, rfl⟩

theorem orNull_eq_self_iff (ty : Ty) : ty.orNull = ty ↔ ∃ inner, ty = .optional inner := by
  cases ty <;> simp [orNull]

theorem orNull_orNull_eq_iff (ty : Ty) :
    ty.orNull.orNull = ty.orNull ↔ ∀ members, ty ≠ .union members := by
  cases ty <;> simp [orNull]

/-! ## Texts -/

/-- The text of a type where it is a part of another one. -/
def text (ty : Ty) : Target → Except Error String
  | .python => ty.toPython.map Annotation.text
  | .typescript => ty.toTypeScript.map TypeScriptTy.text
  | .php => ty.toPhp.map PhpTy.doc

/-- A union is written from the texts of its members. -/
theorem text_union {members : List Ty} (hne : members ≠ []) {ss : List String}
    (h : (members.mapM fun ty => ty.text t) = .ok ss) :
    (Ty.union members).text t = .ok (t.unionText ss) := by
  obtain ⟨first, rest, rfl⟩ := List.exists_cons_of_ne_nil hne
  cases t with
  | python =>
      obtain ⟨as, has, rfl⟩ := exists_of_mapM_map h
      rw [text, toPython, toPythonAll_eq_mapM, has]
      · rfl
      · exact fun h => List.cons_ne_nil first rest h
  | typescript =>
      obtain ⟨as, has, rfl⟩ := exists_of_mapM_map h
      rw [text, toTypeScript, toTypeScriptAll_eq_mapM, has]
      · rfl
      · exact fun h => List.cons_ne_nil first rest h
  | php =>
      obtain ⟨as, has, rfl⟩ := exists_of_mapM_map h
      rw [text, toPhp, toPhpAll_eq_mapM, has]
      · rfl
      · exact fun h => List.cons_ne_nil first rest h

theorem mapM_append_replicate {members : List Ty} {ss : List String}
    (h : (members.mapM fun ty => ty.text t) = .ok ss) {s : String} (ha : a.text t = .ok s)
    (n : Nat) :
    ((members ++ List.replicate n a).mapM fun ty => ty.text t) =
      .ok (ss ++ List.replicate n s) := by
  induction n with
  | zero => simpa using h
  | succ n ih =>
      rw [List.replicate_succ', List.replicate_succ', ← List.append_assoc, ← List.append_assoc,
        List.mapM_append, ih, ok_bind, List.mapM_cons, ha]
      rfl

/-- A union that is widened again is written with one more text each time. -/
theorem text_iterate_union
    (hstep : ∀ members, widened (.union members) = .union (members ++ [a])) {members : List Ty}
    {ss : List String} (h : (members.mapM fun ty => ty.text t) = .ok ss) {s : String}
    (ha : a.text t = .ok s) (n : Nat) :
    (widened^[n + 1] (.union members)).text t =
      .ok (t.unionText (ss ++ List.replicate (n + 1) s)) := by
  rw [iterate_union hstep]
  exact text_union (by simp) (mapM_append_replicate h ha (n + 1))

/-- A parameter that is declared with a union gets one member for each thing it is declared to
accept beside, also for one that the union has. -/
theorem widened_of_union {s : ParamSpec} {members : List Ty} (h : s.ty = .union members) :
    s.widened = .union (members ++ (if s.nullable then [.null] else []) ++
      if s.omittable then [.omit] else []) := by
  obtain ⟨name, ty, default, nullable, omittable⟩ := s
  cases h
  cases nullable <;> cases omittable <;> simp [ParamSpec.widened, orNull, orOmit]

/-- **What widening a type again changes.** Widening by null returns just the optional types as they
are, and what is widened by it twice is what is widened once, for all types but unions. A union
gains one more null each time, and one more of the sentinel's type each time that it is widened by
that; any type is a union once it is widened so. The alternatives are the same after one widening
and after any number, and widening adds none to a type that has it already. But a union is written
with the same alternative once more each time, and the union of a parameter gets one more null, and
one more of the sentinel's type, if the parameter is declared to accept that. -/
theorem widened_again (ty : Ty) :
    (ty.orNull = ty ↔ ∃ inner, ty = .optional inner) ∧
    (ty.orNull.orNull = ty.orNull ↔ ∀ members, ty ≠ .union members) ∧
    (∃ members, ty.orOmit = .union members ∧
      ∀ n, orOmit^[n] ty.orOmit = .union (members ++ List.replicate n .omit)) ∧
    (∀ n, (orNull^[n + 1] ty).alternatives = ty.orNull.alternatives ∧
      (orOmit^[n + 1] ty).alternatives = ty.orOmit.alternatives) ∧
    (ty.orNull.alternatives = ty.alternatives ↔ .null ∈ ty.alternatives) ∧
    (ty.orOmit.alternatives = ty.alternatives ↔ .omit ∈ ty.alternatives) ∧
    ∀ members, ty = .union members →
      (∀ n, orNull^[n] ty = .union (members ++ List.replicate n .null)) ∧
      (∀ s : ParamSpec, s.ty = ty →
        s.widened = .union (members ++ (if s.nullable then [.null] else []) ++
          if s.omittable then [.omit] else [])) ∧
      ∀ (t : Target) (ss : List String), (members.mapM fun m => m.text t) = .ok ss → ∀ n s,
        (Ty.null.text t = .ok s →
          (orNull^[n + 1] ty).text t = .ok (t.unionText (ss ++ List.replicate (n + 1) s))) ∧
        (Ty.omit.text t = .ok s →
          (orOmit^[n + 1] ty).text t = .ok (t.unionText (ss ++ List.replicate (n + 1) s))) := by
  refine ⟨orNull_eq_self_iff ty, orNull_orNull_eq_iff ty, ?_, fun n =>
    ⟨alternatives_iterate alternatives_orNull ty n, alternatives_iterate alternatives_orOmit ty n⟩,
    ?_, ?_, ?_⟩
  · obtain ⟨members, hmembers⟩ := exists_orOmit_eq_union ty
    refine ⟨members, hmembers, fun n => ?_⟩
    rw [hmembers]
    exact iterate_union (fun _ => rfl) members n
  · rw [alternatives_orNull]
    exact Finset.insert_eq_self
  · rw [alternatives_orOmit]
    exact Finset.insert_eq_self
  · rintro members rfl
    exact ⟨iterate_union (fun _ => rfl) members, fun _ => widened_of_union, fun t ss h n s =>
      ⟨fun hnull => text_iterate_union (fun _ => rfl) h hnull n,
        fun homit => text_iterate_union (fun _ => rfl) h homit n⟩⟩

/-- A union that has null below an optional type is widened three times, and written with null at
its end three times in PHP. -/
theorem widened_again_of_union :
    let ty : Ty := .union [.optional .str, .num]
    .null ∈ ty.alternatives ∧ ty.orNull.alternatives = ty.alternatives ∧
      ([Ty.optional .str, .num].mapM fun m => m.text .php) = .ok ["null|string", "int"] ∧
      orNull^[3] ty = .union [.optional .str, .num, .null, .null, .null] ∧
      (orNull^[3] ty).text .php = .ok "null|string|int|null|null|null" ∧
      (⟨"a", ty, none, true, true⟩ : ParamSpec).widened =
        .union [.optional .str, .num, .null, .omit] ∧
      (orOmit^[2] ty).text .typescript = .ok "string | null | number | undefined | undefined" := by
  intro ty
  obtain ⟨-, -, -, -, hnull, -, hunion⟩ := widened_again ty
  obtain ⟨htimes, hparam, htext⟩ := hunion [.optional .str, .num] rfl
  have hmem : .null ∈ ty.alternatives := by decide
  have hphp : ([Ty.optional .str, .num].mapM fun m => m.text .php) =
      .ok ["null|string", "int"] := rfl
  exact ⟨hmem, hnull.2 hmem, hphp, htimes 3, (htext .php _ hphp 2 "null").1 rfl,
    hparam _ rfl, (htext .typescript ["string | null", "number"] rfl 1 "undefined").2 rfl⟩

/-- Widening a union by null twice is not widening it once, though the union accepts null at its end
already: the second null is written, too. Widening a type by the sentinel twice writes it twice. -/
theorem union_widened_twice :
    let ty : Ty := .union [.str, .num]
    ty.orNull = .union [.str, .num, .null] ∧
      ty.orNull.orNull = .union [.str, .num, .null, .null] ∧ ty.orNull.orNull ≠ ty.orNull ∧
      ty.orNull.orNull.toTypeScript = .ok ⟨"string | number | null | null", false⟩ ∧
      Ty.str.orOmit.orOmit = .union [.str, .omit, .omit] ∧ Ty.str.orOmit.orOmit ≠ Ty.str.orOmit ∧
      Ty.str.orOmit.orOmit.toTypeScript = .ok ⟨"string | undefined | undefined", false⟩ := by
  refine ⟨rfl, rfl, ?_, rfl, rfl, ?_, rfl⟩ <;> decide

end Ty

end Polyglot
