import Polyglot.Proofs.Access.Creation
import Polyglot.Proofs.Text.Occurrences
import Polyglot.Proofs.Ty.Annotation

/-!
# Types without alternatives

A union without members and a literal type without values stand for no value at all. A union without
members is refused in every language, and so is a literal type without values in PHP. Python and
TypeScript write a literal type without values, as a text that names no type.

* `Ty.texts`, `Ty.IsWrittenBlank` : what is written for a type, and whether it names none.
* `Ty.IsHollow` : where this comes from.
* `Ty.isWrittenBlank_of_isHollow`, `Ty.exists_part_of_isWrittenBlank` : one type and its parts.
* `Ty.standsIn_of_writtenIn` : what is written for a type stands in what is written around it.
* `Ty.blank_alternatives` : **which types are written without alternatives.**
-/

set_option autoImplicit false

namespace Polyglot

open Outcome Text

/-! ## Texts -/

/-- Texts are empty if nothing is written for all of them. -/
theorem eq_empty_of_intercalate {sep : String} {ss : List String} (h : sep.intercalate ss = "") :
    ∀ s ∈ ss, s = "" := by
  intro s hs
  obtain ⟨before, after, hwhole⟩ := StandsIn.intercalate hs sep
  rw [h] at hwhole
  have hparts := congrArg String.toList hwhole
  simp only [String.toList_append, String.toList_empty, List.nil_eq, List.append_eq_nil_iff,
    String.toList_eq_nil_iff] at hparts
  exact hparts.1.2

/-- A language writes at least one character for every value. -/
theorem intercalate_map_eq_empty_iff {α : Type} {f : α → String} (hf : ∀ a, f a ≠ "") {sep : String}
    {as : List α} : sep.intercalate (as.map f) = "" ↔ as = [] := by
  constructor
  · intro h
    by_contra hne
    obtain ⟨a, rest, rfl⟩ := List.exists_cons_of_ne_nil hne
    exact hf a (eq_empty_of_intercalate h (f a) (List.mem_cons_self ..))
  · rintro rfl
    rfl

theorem ne_empty_quoted (s : String) : Quoted.encode s ≠ "" := by
  intro h
  have hchars := congrArg String.toList h
  simp [Quoted.encode, Quoted.encodeChars] at hchars

theorem Literal.toPython_ne_empty (v : Literal) : v.toPython ≠ "" := by
  cases v with
  | bool b => cases b <;> decide
  | int n => exact Expr.ne_empty_int n
  | str s => exact ne_empty_quoted s

theorem Literal.toTypeScript_ne_empty (v : Literal) : v.toTypeScript ≠ "" := by
  cases v with
  | bool b => cases b <;> decide
  | int n => exact Expr.ne_empty_int n
  | str s => exact ne_empty_quoted s

namespace Ty

open Annotation

variable {t : Target} {ty : Ty}

/-! ## Blank texts -/

/-- The texts that a language writes for a type: in PHP the one for comments, and the one for
signatures if there is one. -/
def texts (ty : Ty) : Target → Except Error (List String)
  | .python => do
    let a ← ty.toPython
    return [a.text]
  | .typescript => do
    let a ← ty.toTypeScript
    return [a.text]
  | .php => do
    let p ← ty.toPhp
    return p.doc :: p.strict.toList

/-- The text names no type: it is empty or, in Python, a list of no alternatives. -/
def IsBlank (t : Target) (s : String) : Prop := s = "" ∨ t = .python ∧ s = "Literal[]"

/-- Some text that the language writes for the type names no type. -/
def IsWrittenBlank (t : Target) (ty : Ty) : Prop :=
  ∃ ss, ty.texts t = .ok ss ∧ ∃ s ∈ ss, IsBlank t s

/-- The type has no alternatives, or the caller spelled it with a text that names no type. -/
def IsHollow (t : Target) : Ty → Prop
  | .literal values => values.values = []
  | .alias name _ => t ≠ .php ∧ IsBlank t name
  | .custom spelling => ∃ s ∈ spelling.texts t, IsBlank t s
  | .python text _ | .typescript text => IsBlank t text
  | .any | .str | .num | .bool | .null | .omit | .optional _ | .list _ | .set _ | .dict _ _
  | .map _ _ | .union _ | .callable _ _ => False

theorem succeeds_texts : Succeeds (ty.texts t) ↔ ty.Renders t := by
  cases t <;> exact succeeds_bind_pure

theorem isBlank_iff_of_ne (ht : t ≠ .python) {s : String} : IsBlank t s ↔ s = "" := by
  simp [IsBlank, ht]

/-- What does not begin like a list of alternatives names a type. -/
theorem not_isBlank_append {p : String} (hp : ¬p.toList <+: "Literal[]".toList) (s : String) :
    ¬IsBlank t (p ++ s) := by
  rintro (h | ⟨-, h⟩)
  · have hchars := congrArg String.toList h
    simp at hchars
    exact hp (hchars.1 ▸ List.nil_prefix)
  · rw [← h, String.toList_append] at hp
    exact hp (List.prefix_append _ _)

theorem not_isBlank_generic {name : String} (hname : ¬name.toList <+: "Literal[]".toList)
    (args : List Annotation) : ¬IsBlank t (generic name args).text := by
  rw [generic, String.append_assoc, String.append_assoc]
  exact not_isBlank_append hname _

/-! ## One type and its parts -/

theorem texts_python {a : Annotation} (h : ty.toPython = .ok a) : ty.texts .python = .ok [a.text] := by
  rw [texts, h]
  rfl

theorem texts_typescript {a : TypeScriptTy} (h : ty.toTypeScript = .ok a) :
    ty.texts .typescript = .ok [a.text] := by
  rw [texts, h]
  rfl

theorem texts_php {p : PhpTy} (h : ty.toPhp = .ok p) :
    ty.texts .php = .ok (p.doc :: p.strict.toList) := by
  rw [texts, h]
  rfl

theorem texts_custom {spelling : CustomTy} (h : (Ty.custom spelling).Renders t) :
    (Ty.custom spelling).texts t = .ok (spelling.texts t) := by
  obtain ⟨python, typescript, php, imports⟩ := spelling
  rw [renders_custom] at h
  cases t with
  | python =>
      cases python with
      | none => exact absurd rfl h
      | some text => rfl
  | typescript =>
      cases typescript with
      | none => exact absurd rfl h
      | some text => rfl
  | php =>
      cases php with
      | none => exact absurd rfl h
      | some php =>
          refine congrArg Except.ok ?_
          simp [CustomTy.texts]

/-- A type that the caller spelled is hollow if it is written blank. -/
theorem isHollow_custom {spelling : CustomTy} {ss : List String}
    (h : (Ty.custom spelling).texts t = .ok ss) {s : String} (hs : s ∈ ss) (hblank : IsBlank t s) :
    (Ty.custom spelling).IsHollow t := by
  have htexts := texts_custom (succeeds_texts.1 ⟨ss, h⟩)
  cases h.symm.trans htexts
  exact ⟨s, hs, hblank⟩

/-- Values between brackets name a type, and no values do not. -/
theorem isBlank_pythonLiteral (values : LiteralSet) :
    IsBlank .python ("Literal[" ++ ", ".intercalate (values.values.map Literal.toPython) ++ "]") ↔
      values.values = [] := by
  have hvalues : ", ".intercalate (values.values.map Literal.toPython) = "" ↔ values.values = [] :=
    intercalate_map_eq_empty_iff Literal.toPython_ne_empty
  rw [← hvalues]
  generalize ", ".intercalate (values.values.map Literal.toPython) = inner
  have hempty : "Literal[" ++ inner ++ "]" = "Literal[]" ↔ inner = "" := by
    rw [← String.toList_inj, ← String.toList_inj]
    simp
  have hsome : "Literal[" ++ inner ++ "]" ≠ "" := by
    intro h
    have hchars := congrArg String.toList h
    simp at hchars
  simp [IsBlank, hempty, hsome]

/-- A hollow type is written blank, if it is written. -/
theorem isWrittenBlank_of_isHollow (hrenders : ty.Renders t) (h : ty.IsHollow t) :
    ty.IsWrittenBlank t := by
  cases ty with
  | any | str | num | bool | null | «omit» | optional | list | set | dict | map | union
  | callable => exact h.elim
  | literal values =>
      cases t with
      | python => exact ⟨_, rfl, _, List.mem_singleton_self _, (isBlank_pythonLiteral values).2 h⟩
      | typescript =>
          refine ⟨_, rfl, _, List.mem_singleton_self _, .inl ?_⟩
          exact (intercalate_map_eq_empty_iff Literal.toTypeScript_ne_empty).2 h
      | php => exact absurd ⟨rfl, h⟩ ((renders_literal values .php).1 hrenders)
  | «alias» name base =>
      obtain ⟨ht, hblank⟩ := h
      cases t with
      | python | typescript => exact ⟨_, rfl, name, List.mem_singleton_self _, hblank⟩
      | php => exact absurd rfl ht
  | custom spelling =>
      obtain ⟨s, hs, hblank⟩ := h
      exact ⟨_, texts_custom hrenders, s, hs, hblank⟩
  | python text quoted =>
      cases t with
      | python => exact ⟨_, rfl, text, List.mem_singleton_self _, h⟩
      | typescript | php => exact absurd hrenders (not_succeeds_error _)
  | typescript text =>
      cases t with
      | typescript => exact ⟨_, rfl, text, List.mem_singleton_self _, h⟩
      | python | php => exact absurd hrenders (not_succeeds_error _)

/-- Of a type that is written in Python, only a hollow one is written blank. -/
theorem isHollow_of_python {a : Annotation} (h : ty.toPython = .ok a)
    (hblank : IsBlank .python a.text) : ty.IsHollow .python := by
  cases ty with
  | any | str | num | bool | null | «omit» =>
      cases h
      simp [IsBlank] at hblank
  | literal values =>
      cases h
      exact (isBlank_pythonLiteral values).1 hblank
  | optional | list | set | dict | map | union =>
      obtain ⟨args, -, rfl⟩ := toPython_generic rfl h
      exact absurd hblank (not_isBlank_generic (by decide) _)
  | callable params result =>
      obtain ⟨ps, r, -, -, rfl⟩ := toPython_callable h
      simp only [String.append_assoc] at hblank
      exact absurd hblank (not_isBlank_append (by decide) _)
  | «alias» name base =>
      cases h
      exact ⟨Target.noConfusion, hblank⟩
  | custom spelling =>
      exact isHollow_custom (texts_python h) (List.mem_singleton_self _) hblank
  | python text quoted =>
      cases h
      exact hblank
  | typescript text => cases h

/-- Of a type that is written in TypeScript, a hollow one is written blank, and a union of types that
are. -/
theorem exists_part_of_typescript {a : TypeScriptTy} (h : ty.toTypeScript = .ok a)
    (hblank : a.text = "") :
    ty.IsHollow .typescript ∨ ∃ part ∈ ty.parts .typescript, part.IsWrittenBlank .typescript := by
  cases ty with
  | any | str | num | bool | null | «omit» =>
      cases h
      simp at hblank
  | literal values =>
      cases h
      exact .inl ((intercalate_map_eq_empty_iff Literal.toTypeScript_ne_empty).1 hblank)
  | optional inner | set inner =>
      obtain ⟨i, -, h⟩ := bind_eq_ok.1 h
      cases pure_eq_ok.1 h
      simp at hblank
  | list inner =>
      obtain ⟨i, -, h⟩ := bind_eq_ok.1 h
      cases pure_eq_ok.1 h
      cases hclosed : i.closed <;> simp [hclosed] at hblank
  | dict key value | map key value =>
      obtain ⟨k, -, h⟩ := bind_eq_ok.1 h
      obtain ⟨v, -, h⟩ := bind_eq_ok.1 h
      cases pure_eq_ok.1 h
      simp at hblank
  | union members =>
      cases members with
      | nil => cases h
      | cons ty tys =>
          obtain ⟨ms, hms, h⟩ := bind_eq_ok.1 h
          obtain ⟨m, hm, hms⟩ := bind_eq_ok.1 hms
          obtain ⟨rest, -, hms⟩ := bind_eq_ok.1 hms
          cases pure_eq_ok.1 hms
          cases pure_eq_ok.1 h
          have hfirst := eq_empty_of_intercalate hblank m.text (List.mem_cons_self ..)
          refine .inr ⟨ty, List.mem_cons_self .., _, texts_typescript hm, m.text, ?_, .inl hfirst⟩
          exact List.mem_singleton_self _
  | callable params result =>
      rw [toTypeScript] at h
      split at h
      · cases h
      · obtain ⟨ps, -, h⟩ := bind_eq_ok.1 h
        obtain ⟨r, -, h⟩ := bind_eq_ok.1 h
        cases pure_eq_ok.1 h
        simp at hblank
  | «alias» name base =>
      cases h
      exact .inl ⟨Target.noConfusion, .inl hblank⟩
  | custom spelling =>
      exact .inl (isHollow_custom (texts_typescript h) (List.mem_singleton_self _) (.inl hblank))
  | python text quoted => cases h
  | typescript text =>
      cases h
      exact .inl (.inl hblank)

theorem ne_empty_of_mem_phpTypes {values : LiteralSet} {s : String} (h : s ∈ values.phpTypes) :
    s ≠ "" := by
  obtain ⟨v, -, rfl⟩ := List.mem_map.1 (mem_ascending.1 h)
  cases v <;> simp [Literal.phpType]

/-- Of a type that is written in PHP, a hollow one is written blank, a union of types that are, and a
name for one. -/
theorem exists_part_of_php {p : PhpTy} (h : ty.toPhp = .ok p)
    (hblank : ∃ s ∈ p.doc :: p.strict.toList, s = "") :
    ty.IsHollow .php ∨ ∃ part ∈ ty.parts .php, part.IsWrittenBlank .php := by
  cases ty with
  | any | str | num | bool | null | map | callable =>
      cases h
      simp at hblank
  | «omit» | set inner => cases h
  | literal values =>
      rw [toPhp] at h
      split at h
      · cases h
      · next only hphp =>
          cases h
          have honly := ne_empty_of_mem_phpTypes (hphp ▸ List.mem_singleton_self only)
          simp [honly] at hblank
      · next many hnil _ =>
          cases h
          obtain ⟨first, rest, hmany⟩ := List.exists_cons_of_ne_nil hnil
          have hfirst : first ≠ "" := ne_empty_of_mem_phpTypes (hmany ▸ List.mem_cons_self ..)
          obtain ⟨s, hs, rfl⟩ := hblank
          rcases List.mem_cons.1 hs with hdoc | hstrict
          · exact absurd (eq_empty_of_intercalate hdoc.symm first (hmany ▸ List.mem_cons_self ..))
              hfirst
          · simp at hstrict
  | optional inner =>
      obtain ⟨i, -, h⟩ := bind_eq_ok.1 h
      cases pure_eq_ok.1 h
      simp at hblank
  | list inner | dict key inner =>
      obtain ⟨i, -, h⟩ := bind_eq_ok.1 h
      cases pure_eq_ok.1 h
      cases hclosed : i.closed <;> simp [hclosed] at hblank
  | union members =>
      cases members with
      | nil => cases h
      | cons ty tys =>
          obtain ⟨ms, hms, h⟩ := bind_eq_ok.1 h
          obtain ⟨m, hm, hms⟩ := bind_eq_ok.1 hms
          obtain ⟨rest, -, hms⟩ := bind_eq_ok.1 hms
          cases pure_eq_ok.1 hms
          cases pure_eq_ok.1 h
          obtain ⟨s, hs, rfl⟩ := hblank
          have hdoc := List.mem_singleton.1 hs
          have hfirst := eq_empty_of_intercalate hdoc.symm m.doc (List.mem_cons_self ..)
          refine .inr ⟨ty, List.mem_cons_self .., _, texts_php hm, m.doc, ?_, .inl hfirst⟩
          exact List.mem_cons_self ..
  | «alias» name base =>
      rw [toPhp] at h
      obtain ⟨s, hs, hempty⟩ := hblank
      exact .inr ⟨base, List.mem_singleton_self _, _, texts_php h, s, hs, .inl hempty⟩
  | custom spelling =>
      obtain ⟨s, hs, hempty⟩ := hblank
      exact .inl (isHollow_custom (texts_php h) hs (.inl hempty))
  | python text quoted => cases h
  | typescript text => cases h

/-- A type that is written blank is hollow, or some part of it is written blank. -/
theorem exists_part_of_isWrittenBlank (h : ty.IsWrittenBlank t) :
    ty.IsHollow t ∨ ∃ part ∈ ty.parts t, part.IsWrittenBlank t := by
  obtain ⟨ss, htexts, s, hs, hblank⟩ := h
  cases t with
  | python =>
      obtain ⟨a, ha, htexts⟩ := bind_eq_ok.1 htexts
      cases pure_eq_ok.1 htexts
      cases List.mem_singleton.1 hs
      exact .inl (isHollow_of_python ha hblank)
  | typescript =>
      obtain ⟨a, ha, htexts⟩ := bind_eq_ok.1 htexts
      cases pure_eq_ok.1 htexts
      cases List.mem_singleton.1 hs
      exact exists_part_of_typescript ha ((isBlank_iff_of_ne Target.noConfusion).1 hblank)
  | php =>
      obtain ⟨p, hp, htexts⟩ := bind_eq_ok.1 htexts
      cases pure_eq_ok.1 htexts
      exact exists_part_of_php hp ⟨s, hs, (isBlank_iff_of_ne Target.noConfusion).1 hblank⟩

/-! ## Texts inside texts -/

theorem standsIn_commas {p : Annotation} {args : List Annotation} (h : p ∈ args) :
    StandsIn p.text (commas args) :=
  StandsIn.intercalate (List.mem_map_of_mem h) ", "

theorem standsIn_generic {p : Annotation} {args : List Annotation} (h : p ∈ args) (name : String) :
    StandsIn p.text (generic name args).text :=
  ((standsIn_commas h).append_left _).append_right _

/-- The text of a part stands in the Python text of the type. -/
theorem standsIn_of_mem_parts_python {part : Ty} {a p : Annotation}
    (hpart : part ∈ ty.parts .python) (h : ty.toPython = .ok a) (hp : part.toPython = .ok p) :
    StandsIn p.text a.text := by
  cases ty with
  | any | str | num | bool | null | «omit» | literal | «alias» | custom | python | typescript =>
      exact nomatch hpart
  | optional | list | set | dict | map | union =>
      obtain ⟨args, hargs, rfl⟩ := toPython_generic rfl h
      exact standsIn_generic (mem_of_mapM_eq_ok hargs hpart hp) _
  | callable params result =>
      obtain ⟨ps, r, hps, hr, rfl⟩ := toPython_callable h
      have hmem : part ∈ params ∨ part = result := by simpa [parts] using hpart
      rcases hmem with hparam | rfl
      · have hcommas := standsIn_commas (mem_of_mapM_eq_ok hps hparam hp)
        exact (((hcommas.append_left _).append_right _).append_right _).append_right _
      · cases hp.symm.trans hr
        exact ((StandsIn.self _).append_left _).append_right _

/-- Every parameter stands behind some name, if there are names enough. -/
theorem exists_mem_zipWith {names : List String} {ps : List TypeScriptTy}
    (hlength : ps.length ≤ names.length) {p : TypeScriptTy} (hp : p ∈ ps) :
    ∃ name, name ++ ": " ++ p.text ∈ names.zipWith (fun name p => name ++ ": " ++ p.text) ps := by
  obtain ⟨i, hi, rfl⟩ := List.mem_iff_getElem.1 hp
  have hname : i < names.length := by omega
  have hzip : i < (names.zipWith (fun name p => name ++ ": " ++ p.text) ps).length := by
    rw [List.length_zipWith]
    omega
  refine ⟨names[i], List.mem_iff_getElem.2 ⟨i, hzip, ?_⟩⟩
  rw [List.getElem_zipWith]

/-- The text of a part stands in the TypeScript text of the type. -/
theorem standsIn_of_mem_parts_typescript {part : Ty} {a p : TypeScriptTy}
    (hpart : part ∈ ty.parts .typescript) (h : ty.toTypeScript = .ok a)
    (hp : part.toTypeScript = .ok p) : StandsIn p.text a.text := by
  cases ty with
  | any | str | num | bool | null | «omit» | literal | «alias» | custom | python | typescript =>
      exact nomatch hpart
  | optional inner =>
      cases List.mem_singleton.1 hpart
      obtain ⟨i, hi, h⟩ := bind_eq_ok.1 h
      cases pure_eq_ok.1 h
      cases hp.symm.trans hi
      exact (StandsIn.self _).append_right _
  | list inner =>
      cases List.mem_singleton.1 hpart
      obtain ⟨i, hi, h⟩ := bind_eq_ok.1 h
      cases pure_eq_ok.1 h
      cases hp.symm.trans hi
      show StandsIn p.text (if p.closed then p.text ++ "[]" else "Array<" ++ p.text ++ ">")
      split
      · exact (StandsIn.self _).append_right _
      · exact ((StandsIn.self _).append_left _).append_right _
  | set inner =>
      cases List.mem_singleton.1 hpart
      obtain ⟨i, hi, h⟩ := bind_eq_ok.1 h
      cases pure_eq_ok.1 h
      cases hp.symm.trans hi
      exact ((StandsIn.self _).append_left _).append_right _
  | dict key value | map key value =>
      obtain ⟨k, hk, h⟩ := bind_eq_ok.1 h
      obtain ⟨v, hv, h⟩ := bind_eq_ok.1 h
      cases pure_eq_ok.1 h
      have hmem : part = key ∨ part = value := by simpa [parts] using hpart
      rcases hmem with rfl | rfl
      · cases hp.symm.trans hk
        exact ((((StandsIn.self _).append_left _).append_right _).append_right _).append_right _
      · cases hp.symm.trans hv
        exact ((StandsIn.self _).append_left _).append_right _
  | union members =>
      cases members with
      | nil => cases h
      | cons ty tys =>
          obtain ⟨ms, hms, h⟩ := bind_eq_ok.1 h
          cases pure_eq_ok.1 h
          rw [toTypeScriptAll_eq_mapM] at hms
          exact StandsIn.intercalate (List.mem_map_of_mem (mem_of_mapM_eq_ok hms hpart hp)) _
  | callable params result =>
      rw [toTypeScript] at h
      split at h
      · cases h
      next hlimit =>
      obtain ⟨ps, hps, h⟩ := bind_eq_ok.1 h
      obtain ⟨r, hr, h⟩ := bind_eq_ok.1 h
      cases pure_eq_ok.1 h
      rw [toTypeScriptAll_eq_mapM] at hps
      have hmem : part ∈ params ∨ part = result := by simpa [parts] using hpart
      rcases hmem with hparam | rfl
      · have hlength : ps.length ≤ parameterNames.length := by
          have hsame := (forall₂_of_mapM_eq_ok hps fun _ _ _ h => h).length_eq
          omega
        obtain ⟨name, hname⟩ := exists_mem_zipWith hlength (mem_of_mapM_eq_ok hps hparam hp)
        have htyped := ((StandsIn.self p.text).append_left _).trans (.intercalate hname ", ")
        exact ((htyped.append_left _).append_right _).append_right _
      · cases hp.symm.trans hr
        exact (StandsIn.self _).append_left _

/-! ## Whole types -/

theorem WrittenIn.trans {a b c : Ty} (hab : a.WrittenIn t b) (hbc : b.WrittenIn t c) :
    a.WrittenIn t c := by
  induction hbc with
  | self => exact hab
  | part hpart _ ih => exact .part hpart (ih hab)

/-- What is written inside a type can be written. -/
theorem renders_of_writtenIn {node : Ty} (hnode : node.WrittenIn t ty) (hrenders : ty.Renders t) :
    node.Renders t := by
  rw [renders_iff_written] at hrenders ⊢
  intro inner hinner
  exact hrenders inner (hinner.trans hnode)

/-- A type that is written blank has a hollow type in it. -/
theorem exists_hollow_of_isWrittenBlank (h : ty.IsWrittenBlank t) :
    ∃ node : Ty, node.WrittenIn t ty ∧ node.IsHollow t := by
  induction ty using induction_on_parts t with
  | step ty ih =>
      rcases exists_part_of_isWrittenBlank h with hhollow | ⟨part, hpart, hblank⟩
      · exact ⟨ty, .self ty, hhollow⟩
      · obtain ⟨node, hnode, hhollow⟩ := ih part hpart hblank
        exact ⟨node, .part hpart hnode, hhollow⟩

/-- Python and TypeScript write one text for a type. -/
theorem exists_text (ht : t ≠ .php) (hrenders : ty.Renders t) : ∃ s, ty.texts t = .ok [s] := by
  cases t with
  | python =>
      obtain ⟨a, ha⟩ := hrenders
      exact ⟨_, texts_python ha⟩
  | typescript =>
      obtain ⟨a, ha⟩ := hrenders
      exact ⟨_, texts_typescript ha⟩
  | php => exact absurd rfl ht

theorem standsIn_of_mem_parts (ht : t ≠ .php) {part : Ty} (hpart : part ∈ ty.parts t)
    {s whole : String} (hs : part.texts t = .ok [s]) (hwhole : ty.texts t = .ok [whole]) :
    StandsIn s whole := by
  cases t with
  | python =>
      obtain ⟨p, hp, hs⟩ := bind_eq_ok.1 hs
      obtain ⟨a, ha, hwhole⟩ := bind_eq_ok.1 hwhole
      cases pure_eq_ok.1 hs
      cases pure_eq_ok.1 hwhole
      exact standsIn_of_mem_parts_python hpart ha hp
  | typescript =>
      obtain ⟨p, hp, hs⟩ := bind_eq_ok.1 hs
      obtain ⟨a, ha, hwhole⟩ := bind_eq_ok.1 hwhole
      cases pure_eq_ok.1 hs
      cases pure_eq_ok.1 hwhole
      exact standsIn_of_mem_parts_typescript hpart ha hp
  | php => exact absurd rfl ht

/-- What is written for a type stands in what is written for every type around it. -/
theorem standsIn_of_writtenIn (ht : t ≠ .php) {node : Ty} (hnode : node.WrittenIn t ty)
    (hrenders : ty.Renders t) :
    ∃ s whole, node.texts t = .ok [s] ∧ ty.texts t = .ok [whole] ∧ StandsIn s whole := by
  induction hnode with
  | self ty =>
      obtain ⟨s, hs⟩ := exists_text ht hrenders
      exact ⟨s, s, hs, hs, .self s⟩
  | @part ty inner node hpart _ ih =>
      obtain ⟨s, outer, hs, houter, hstands⟩ := ih (((renders_iff_parts ty t).1 hrenders).2 _ hpart)
      obtain ⟨whole, hwhole⟩ := exists_text ht hrenders
      exact ⟨s, whole, hs, hwhole, hstands.trans (standsIn_of_mem_parts ht hpart houter hwhole)⟩

/-- **Types without alternatives.** A type is refused if a union without members is written in it,
and in PHP if a literal type without values is. Of the types that are written, those are written
with a text that names no type in which something hollow is written: in Python and TypeScript a
literal type without values, and in every language what the caller spelled so. In Python and
TypeScript, that text stands in the text of the whole type. -/
theorem blank_alternatives (ty : Ty) (t : Target) :
    ((∃ node : Ty, node.WrittenIn t ty ∧
        (node = .union [] ∨ t = .php ∧ ∃ values, node = .literal values ∧ values.values = [])) →
      ∃ e, ty.texts t = .error e) ∧
    (ty.Renders t →
      ((∃ node : Ty, node.WrittenIn t ty ∧ node.IsWrittenBlank t) ↔
        ∃ node : Ty, node.WrittenIn t ty ∧ node.IsHollow t)) ∧
    (ty.Renders t → t ≠ .php → ∀ node : Ty, node.WrittenIn t ty →
      ∃ s whole, node.texts t = .ok [s] ∧ ty.texts t = .ok [whole] ∧ StandsIn s whole) := by
  refine ⟨?_, ?_, fun hrenders ht node hnode => standsIn_of_writtenIn ht hnode hrenders⟩
  · rintro ⟨node, hnode, hempty⟩
    rw [← not_succeeds_iff, succeeds_texts, not_renders_iff]
    refine ⟨node, hnode, ?_⟩
    rcases hempty with rfl | ⟨rfl, values, rfl, hvalues⟩
    · rfl
    · exact ⟨rfl, hvalues⟩
  · intro hrenders
    constructor
    · rintro ⟨node, hnode, hblank⟩
      obtain ⟨inner, hinner, hhollow⟩ := exists_hollow_of_isWrittenBlank hblank
      exact ⟨inner, hinner.trans hnode, hhollow⟩
    · rintro ⟨node, hnode, hhollow⟩
      exact ⟨node, hnode, isWrittenBlank_of_isHollow (renders_of_writtenIn hnode hrenders) hhollow⟩

/-- A literal type without values is written by two languages, also as a member of a union, and
refused by the third. -/
theorem literal_without_values_written :
    let empty : Ty := .literal (.ofList [])
    empty.toPython = .ok ⟨"Literal[]", false⟩ ∧ empty.toTypeScript = .ok ⟨"", false⟩ ∧
      empty.toPhp = .error (.invalid .emptyLiteral) ∧
      (Ty.union [.str, empty]).toPython = .ok ⟨"Union[str, Literal[]]", false⟩ ∧
      (Ty.union [.str, empty]).toTypeScript = .ok ⟨"string | ", false⟩ :=
  ⟨rfl, rfl, rfl, rfl, rfl⟩

end Ty

end Polyglot
