import Polyglot.Proofs.Brackets.Imports
import Polyglot.Proofs.Text.Identifiers
import Polyglot.Proofs.Ty.Readable

/-!
# Imports of types and the names in annotations

What a type needs in scope is collected by a walk of its own, beside the one that writes the
annotation. Read off the annotation word by word, every name of a generic type asks for its import
and the sentinel's type asks for its module, in the same order and as often.

* `Ty.identifiers_generic`, `Ty.identifiers_callable` : the words of an annotation, from its parts.
* `Ty.imports_generic`, `Ty.imports_callable` : the imports of a type, from its parts.
* `Ty.neededFor`, `Ty.imports_eq_flatMap_identifiers` : the imports, from the words.
* `Ty.imports_eq_names` : **a type imports exactly the names that its annotation uses.**
-/

set_option autoImplicit false

namespace Polyglot.Ty

open Outcome Text
open Annotation (commas generic)

variable {t : Target} {ty : Ty} {a : Annotation}

/-! ## Words -/

def wordsAll (as : List Annotation) : List String := as.flatMap fun a => identifiers a.text

theorem identifiers_commas (as : List Annotation) : identifiers (commas as) = wordsAll as := by
  rw [commas, identifiers_intercalate (by decide), List.flatMap_map]
  rfl

/-- The words of a generic type are its name and the words of its arguments. -/
theorem identifiers_generic {name : String} (hname : isIdentifier name = true)
    (args : List Annotation) :
    identifiers (generic name args).text = name :: wordsAll args := by
  rw [generic, identifiers_append_gap (by decide), identifiers_between (by decide),
    identifiers_self hname, identifiers_commas]
  rfl

theorem identifiers_callable (ps : List Annotation) (r : Annotation) :
    identifiers ("Callable[[" ++ commas ps ++ "], " ++ r.text ++ "]") =
      "Callable" :: (wordsAll ps ++ identifiers r.text) := by
  have hhead : "Callable[[" = "Callable" ++ "[[" := rfl
  rw [identifiers_append_gap (by decide), identifiers_between (by decide), hhead,
    identifiers_between (by decide), identifiers_commas, identifiers_self (by decide)]
  rfl

/-! ## Imports -/

theorem importsAll_eq_flatMap (tys : List Ty) : importsAll t tys = tys.flatMap (imports t) := by
  induction tys with
  | nil => rfl
  | cons ty tys ih => rw [importsAll, ih, List.flatMap_cons]

/-- A generic type needs its name and what its arguments need. -/
theorem imports_generic {name : String} (hname : ty.genericName? = some name) :
    ty.imports t = typing t name ++ (ty.parts .python).flatMap (imports t) := by
  cases ty with
  | any | str | num | bool | null | «omit» | literal | callable | «alias» | custom | python
  | typescript => cases hname
  | optional | list | set =>
      cases hname
      simp [imports, parts]
  | dict | map =>
      cases hname
      simp [imports, parts]
  | union members =>
      cases hname
      rw [imports, importsAll_eq_flatMap, parts]

theorem imports_callable (params : List Ty) (result : Ty) :
    (Ty.callable params result).imports t =
      typing t "Callable" ++ (params.flatMap (imports t) ++ result.imports t) := by
  rw [imports, importsAll_eq_flatMap, List.append_assoc]

mutual

/-- Types in which nothing is spelled by the caller are regular. -/
theorem isRegular_of_isBuiltIn : ∀ ty : Ty, ty.IsBuiltIn → ty.IsRegular
  | .any, _ | .str, _ | .num, _ | .bool, _ | .null, _ | .omit, _ | .literal _, _ => trivial
  | .optional inner, h | .list inner, h | .set inner, h => isRegular_of_isBuiltIn inner h
  | .dict key value, h | .map key value, h =>
      ⟨isRegular_of_isBuiltIn key h.1, isRegular_of_isBuiltIn value h.2⟩
  | .union members, h => allRegular_of_allSpelled members h
  | .callable params result, h =>
      ⟨allRegular_of_allSpelled params h.1, isRegular_of_isBuiltIn result h.2⟩
  | .alias _ _, h => nomatch h
  | .custom _, h | .python _ _, h | .typescript _, h => h.elim

theorem allRegular_of_allSpelled : ∀ tys : List Ty, AllSpelled (fun _ => false) tys → AllRegular tys
  | [], _ => trivial
  | ty :: tys, h => ⟨isRegular_of_isBuiltIn ty h.1, allRegular_of_allSpelled tys h.2⟩

end

/-! ## Imports from words -/

/-- The words that need no import by themselves: types and constants that are always there, and what
is named behind its module. -/
def freeWords : List String := ["str", "int", "bool", "None", "True", "False", "ellipsis"]

/-- What has to be imported for one word of an annotation. -/
def neededFor (w : String) : List Import :=
  if w = "builtins" then [.whole w] else if w ∈ freeWords then [] else [.named "typing" w]

/-- No literal type in the type has a text among its values. -/
def HasNoTexts (ty : Ty) : Prop :=
  ∀ values, (Ty.literal values).WrittenIn .python ty → ∀ s, .str s ∉ values.values

theorem hasNoTexts_iff_parts : ty.HasNoTexts ↔
    (∀ values, ty = .literal values → ∀ s, .str s ∉ values.values) ∧
      ∀ part ∈ ty.parts .python, part.HasNoTexts := by
  constructor
  · intro h
    exact ⟨fun values hty => h values (hty ▸ .self _),
      fun part hpart values hvalues => h values (.part hpart hvalues)⟩
  · rintro ⟨hself, hparts⟩ values hvalues
    rcases writtenIn_iff.1 hvalues with rfl | ⟨part, hpart, hinner⟩
    · exact hself values rfl
    · exact hparts part hpart values hinner

/-- Constants other than texts need no import. -/
theorem neededFor_constants {vs : List Literal} (hvs : ∀ s, .str s ∉ vs) :
    (identifiers (", ".intercalate (vs.map Literal.toPython))).flatMap neededFor = [] := by
  rw [identifiers_intercalate (by decide), List.flatMap_map, List.flatMap_assoc,
    List.flatMap_eq_nil_iff]
  intro v hv
  cases v with
  | bool b => cases b <;> rfl
  | int n => rw [Literal.toPython, identifiers_int, List.flatMap_nil]
  | str s => exact absurd hv (hvs s)

/-- If the words of every part account for its imports, so do the words of all parts together. -/
theorem flatMap_neededFor {tys : List Ty} {as : List Annotation} (h : tys.mapM toPython = .ok as)
    (hparts : ∀ ty ∈ tys, ∀ a, ty.toPython = .ok a →
      ty.imports .python = (identifiers a.text).flatMap neededFor) :
    tys.flatMap (imports .python) = (wordsAll as).flatMap neededFor := by
  have hall := forall₂_of_mapM_eq_ok h hparts
  clear h hparts
  induction hall with
  | nil => rfl
  | cons hfirst _ ih =>
      rw [List.flatMap_cons, hfirst, ih, ← List.flatMap_append]
      rfl

/-- **The imports of a type are those that the words of its annotation ask for**, one by one. -/
theorem imports_eq_flatMap_identifiers (hbuilt : ty.IsBuiltIn) (htexts : ty.HasNoTexts)
    (h : ty.toPython = .ok a) :
    ty.imports .python = (identifiers a.text).flatMap neededFor := by
  induction ty using induction_on_parts .python generalizing a with
  | step ty ih =>
      have hparts : ∀ part ∈ ty.parts .python, ∀ p, part.toPython = .ok p →
          part.imports .python = (identifiers p.text).flatMap neededFor :=
        fun part hpart p hp => ih part hpart (hbuilt.of_mem_parts hpart)
          ((hasNoTexts_iff_parts.1 htexts).2 part hpart) hp
      cases ty with
      | any | str | num | bool | null | «omit» =>
          cases h
          rfl
      | literal values =>
          cases h
          have hhead : "Literal[" = "Literal" ++ "[" := rfl
          rw [identifiers_append_gap (by decide), hhead, identifiers_between (by decide),
            List.flatMap_append, neededFor_constants (htexts values (.self _))]
          rfl
      | optional | list | set | dict | map | union =>
          obtain ⟨args, hargs, rfl⟩ := toPython_generic rfl h
          rw [imports_generic rfl, identifiers_generic (by decide), List.flatMap_cons,
            flatMap_neededFor hargs hparts]
          rfl
      | callable params result =>
          obtain ⟨ps, r, hps, hr, rfl⟩ := toPython_callable h
          have hparams := flatMap_neededFor hps fun part hpart =>
            hparts part (by simp [parts, hpart])
          have hresult := hparts result (by simp [parts]) r hr
          rw [imports_callable, identifiers_callable, hparams, hresult, List.flatMap_cons,
            List.flatMap_append]
          rfl
      | «alias» => cases hbuilt
      | custom | python | typescript => exact hbuilt.elim

theorem named_mem_neededFor {name w : String} :
    .named "typing" name ∈ neededFor w ↔ name = w ∧ w ≠ "builtins" ∧ w ∉ freeWords := by
  unfold neededFor
  split
  · simp [Import.named, Import.whole, *]
  split
  · simp [*]
  · simp [Import.named, *]

theorem whole_mem_neededFor {module w : String} :
    .whole module ∈ neededFor w ↔ module = w ∧ w = "builtins" := by
  unfold neededFor
  split
  · simp [Import.whole, *]
  split
  · simp [*]
  · simp [Import.named, Import.whole, *]

/-- **A type imports exactly the names that its annotation uses.** For every type that is made of
the types of this library, with no texts among the values of its literal types: what is imported
from `typing` are the identifiers in its annotation, but for those that are always there; the module
`builtins` is imported just if its name stands in the annotation; nothing else is. Other languages
need nothing. -/
theorem imports_eq_names (hbuilt : ty.IsBuiltIn) (htexts : ty.HasNoTexts)
    (h : ty.toPython = .ok a) :
    (∀ name, .named "typing" name ∈ ty.imports .python ↔ name ∈ identifiers a.text ∧
      name ∉ ["str", "int", "bool", "None", "True", "False", "builtins", "ellipsis"]) ∧
    (.whole "builtins" ∈ ty.imports .python ↔ "builtins" ∈ identifiers a.text) ∧
    (∀ i ∈ ty.imports .python, i = .whole "builtins" ∨ ∃ name, i = .named "typing" name) ∧
    ty.imports .typescript = [] ∧ ty.imports .php = [] := by
  have hregular := isRegular_of_isBuiltIn ty hbuilt
  rw [imports_eq_flatMap_identifiers hbuilt htexts h]
  refine ⟨fun name => ?_, ?_, fun i hi => ?_, imports_eq_nil Target.noConfusion ty hregular,
    imports_eq_nil Target.noConfusion ty hregular⟩
  · simp only [List.mem_flatMap, named_mem_neededFor, freeWords]
    constructor
    · rintro ⟨_, hmem, rfl, hmodule, hfree⟩
      exact ⟨hmem, by simp_all⟩
    · rintro ⟨hmem, hfree⟩
      exact ⟨name, hmem, rfl, by simp_all⟩
  · simp only [List.mem_flatMap, whole_mem_neededFor]
    constructor
    · rintro ⟨_, hmem, rfl, -⟩
      exact hmem
    · exact fun hmem => ⟨_, hmem, rfl, rfl⟩
  · obtain ⟨w, -, hi⟩ := List.mem_flatMap.1 hi
    unfold neededFor at hi
    split at hi
    · next hw =>
      rw [hw] at hi
      exact .inl (List.mem_singleton.1 hi)
    split at hi
    · exact absurd hi List.not_mem_nil
    · exact .inr ⟨w, List.mem_singleton.1 hi⟩

/-- A function type with constants among its parameters and the sentinel's type in its result. -/
theorem imports_eq_names_of_function :
    let ty : Ty := .callable [.literal (.ofList [.bool true, .int (-3)])] (.set .omit)
    ty.toPython = .ok ⟨"Callable[[Literal[True, -3]], Set[builtins.ellipsis]]", true⟩ ∧
      .whole "builtins" ∈ ty.imports .python ∧
      ∀ name,
        .named "typing" name ∈ ty.imports .python ↔ name ∈ ["Callable", "Literal", "Set"] := by
  intro ty
  have htext : ty.toPython =
      .ok ⟨"Callable[[Literal[True, -3]], Set[builtins.ellipsis]]", true⟩ := rfl
  have hwords : identifiers "Callable[[Literal[True, -3]], Set[builtins.ellipsis]]" =
      ["Callable", "Literal", "True", "Set", "builtins", "ellipsis"] := rfl
  have hbuilt : ty.IsBuiltIn := ⟨⟨trivial, trivial⟩, trivial⟩
  have hconstants : (Ty.literal (.ofList [.bool true, .int (-3)])).HasNoTexts := by
    refine hasNoTexts_iff_parts.2 ⟨fun values hvalues s => ?_, List.forall_mem_nil _⟩
    cases hvalues
    simp [LiteralSet.mem_ofList]
  have homit : Ty.omit.HasNoTexts := hasNoTexts_iff_parts.2 ⟨nofun, List.forall_mem_nil _⟩
  have hset : (Ty.set .omit).HasNoTexts :=
    hasNoTexts_iff_parts.2 ⟨nofun, List.forall_mem_singleton.2 homit⟩
  have htexts : ty.HasNoTexts := hasNoTexts_iff_parts.2
    ⟨nofun, List.forall_mem_cons.2 ⟨hconstants, List.forall_mem_singleton.2 hset⟩⟩
  obtain ⟨hnames, hmodule, -⟩ := imports_eq_names hbuilt htexts htext
  have hkept : (["Callable", "Literal", "True", "Set", "builtins", "ellipsis"].filter fun w =>
      w ∉ ["str", "int", "bool", "None", "True", "False", "builtins", "ellipsis"]) =
        ["Callable", "Literal", "Set"] := by decide
  refine ⟨htext, hmodule.2 (by rw [hwords]; decide), fun name => ?_⟩
  rw [hnames, hwords, ← hkept, List.mem_filter, decide_eq_true_iff]

end Polyglot.Ty
