import Mathlib.Data.Set.List
import Polyglot.Proofs.Ty.Expressible

/-!
# Types in documentation comments

In a PHP documentation comment a type is a list of alternatives with bars between them. An array
suffix binds more tightly than a bar, so it is put behind a type only where that is a single name;
arrays of anything else are `mixed`.

* `DocName`, `DocAlternative` : the names and alternatives; `DocAlternative.texts` writes them.
* `DocAlternative.splitOn_texts` : the alternatives are read back at the bars.
* `PhpTy.HasAlternatives`, `PhpTy.HasAlternatives.exists_arrayOf` : the alternatives of a type that
  is written, and of arrays of it.
* `Ty.exists_alternatives_of_parts` : the alternatives of a type come from those of its parts.
* `Ty.doc_alternatives` : **types in documentation comments are alternatives** with one suffix at
  most, which applies to all of an element type or is not written.
-/

set_option autoImplicit false

namespace Polyglot

open Outcome

/-- A name that documentation comments have for a type. -/
inductive DocName where
  | mixed
  | string
  | int
  | bool
  | boolean
  | null
  | callable
  | map
  deriving DecidableEq, Repr

/-- The name as it is written. -/
def DocName.text : DocName → String
  | .mixed => "mixed"
  | .string => "string"
  | .int => "int"
  | .bool => "bool"
  | .boolean => "boolean"
  | .null => "null"
  | .callable => "callable"
  | .map => "\\Ds\\Map"

/-- One of the alternatives of a type: a name, or arrays of what has the name. -/
structure DocAlternative where
  name : DocName
  isArray : Bool
  deriving DecidableEq, Repr

namespace DocAlternative

/-- The alternative as it is written. -/
def text (a : DocAlternative) : String := a.name.text ++ if a.isArray then "[]" else ""

/-- Alternatives with bars between them. -/
def texts (as : List DocAlternative) : String := "|".intercalate (as.map text)

theorem texts_singleton (a : DocAlternative) : texts [a] = a.text := String.intercalate_singleton

/-- Names with bars between them are alternatives. -/
theorem texts_names (names : List DocName) :
    texts (names.map (⟨·, false⟩)) = "|".intercalate (names.map DocName.text) := by
  rw [texts, List.map_map]
  refine congrArg _ (List.map_congr_left fun name _ => ?_)
  exact String.append_empty

theorem texts_append {as bs : List DocAlternative} (ha : as ≠ []) (hb : bs ≠ []) :
    texts (as ++ bs) = texts as ++ "|" ++ texts bs := by
  rw [texts, List.map_append]
  exact String.intercalate_append_of_ne_nil (mt List.map_eq_nil_iff.1 ha)
    (mt List.map_eq_nil_iff.1 hb)

/-- Lists of alternatives with bars between them are alternatives again. -/
theorem exists_texts_eq_intercalate {ss : List String} (hne : ss ≠ [])
    (h : ∀ s ∈ ss, ∃ as : List DocAlternative, as ≠ [] ∧ s = texts as) :
    ∃ as : List DocAlternative, as ≠ [] ∧ "|".intercalate ss = texts as := by
  induction ss with
  | nil => exact absurd rfl hne
  | cons s rest ih =>
      obtain ⟨⟨as, has, rfl⟩, hrest⟩ := List.forall_mem_cons.1 h
      by_cases hnil : rest = []
      · subst hnil
        exact ⟨as, has, String.intercalate_singleton⟩
      · obtain ⟨bs, hbs, hjoined⟩ := ih hnil hrest
        refine ⟨as ++ bs, by simp [has], ?_⟩
        rw [String.intercalate_cons_of_ne_nil hnil, hjoined, texts_append has hbs]

theorem bar_notMem_text (a : DocAlternative) : '|' ∉ a.text.toList := by
  obtain ⟨name, isArray⟩ := a
  cases name <;> cases isArray <;> decide

/-- The alternatives stand between the bars of the text. -/
theorem splitOn_texts {as : List DocAlternative} (h : as ≠ []) :
    (texts as).toList.splitOn '|' = as.map fun a => a.text.toList := by
  rw [texts, String.toList_intercalate, List.map_map]
  refine List.splitOn_intercalate '|' ?_ (mt List.map_eq_nil_iff.1 h)
  intro l hl
  obtain ⟨a, -, rfl⟩ := List.mem_map.1 hl
  exact a.bar_notMem_text

end DocAlternative

/-- A type that is written as the alternatives, and is closed only if it is a single name. -/
structure PhpTy.HasAlternatives (p : PhpTy) (as : List DocAlternative) : Prop where
  ne_nil : as ≠ []
  doc : p.doc = DocAlternative.texts as
  closed : p.closed = true → ∃ name, as = [⟨name, false⟩]

namespace PhpTy.HasAlternatives

variable {p : PhpTy} {as : List DocAlternative}

/-- A type that is written as a name. -/
theorem single (strict : Option String) (name : DocName) (closed : Bool) :
    HasAlternatives ⟨strict, name.text, closed⟩ [⟨name, false⟩] where
  ne_nil := List.cons_ne_nil _ _
  doc := by
    rw [DocAlternative.texts_singleton]
    exact (String.append_empty).symm
  closed _ := ⟨name, rfl⟩

/-- A type that is closed is written as a name. -/
theorem exists_name (h : p.HasAlternatives as) (hclosed : p.closed = true) :
    ∃ name : DocName, p.doc = name.text := by
  obtain ⟨name, rfl⟩ := h.closed hclosed
  refine ⟨name, ?_⟩
  rw [h.doc, DocAlternative.texts_singleton]
  exact String.append_empty

/-- Arrays of a type are one alternative: with a suffix if the type is a single name, and `mixed`
otherwise. -/
theorem exists_arrayOf (h : p.HasAlternatives as) :
    ∃ a : DocAlternative, (if p.closed then p.doc ++ "[]" else "mixed") = a.text ∧
      ((∃ name : DocName, p.closed = true ∧ p.doc = name.text ∧ a = ⟨name, true⟩) ∨
        p.closed = false ∧ a = ⟨.mixed, false⟩) := by
  cases hclosed : p.closed with
  | true =>
      obtain ⟨name, hname⟩ := h.exists_name hclosed
      exact ⟨⟨name, true⟩, congrArg (· ++ "[]") hname, .inl ⟨name, rfl, hname, rfl⟩⟩
  | false => exact ⟨⟨.mixed, false⟩, rfl, .inr ⟨rfl, rfl⟩⟩

end PhpTy.HasAlternatives

namespace Ty

open PhpTy.HasAlternatives

variable {ty : Ty} {p : PhpTy}

/-- The types of constants are names. -/
theorem exists_map_eq_phpTypes (values : LiteralSet) :
    ∃ names : List DocName, names.map DocName.text = values.phpTypes := by
  have hnames : values.phpTypes ∈ Set.range (List.map DocName.text) := by
    rw [Set.range_list_map]
    intro s hs
    obtain ⟨v, -, rfl⟩ := List.mem_map.1 (mem_ascending.1 hs)
    cases v with
    | bool _ => exact ⟨.bool, rfl⟩
    | int _ => exact ⟨.int, rfl⟩
    | str _ => exact ⟨.string, rfl⟩
  exact hnames

theorem exists_alternatives_literal {values : LiteralSet} (h : (Ty.literal values).toPhp = .ok p) :
    ∃ as, p.HasAlternatives as := by
  obtain ⟨names, hnames⟩ := exists_map_eq_phpTypes values
  rw [toPhp, ← hnames] at h
  match names, h with
  | [], h => cases h
  | [name], h =>
      cases h
      exact ⟨_, single _ name true⟩
  | first :: second :: rest, h =>
      cases h
      exact ⟨_, List.cons_ne_nil _ _,
        (DocAlternative.texts_names (first :: second :: rest)).symm, nofun⟩

/-- A union has the alternatives of all its members. -/
theorem exists_alternatives_union {members : List Ty}
    (hmembers : ∀ ty ∈ members, ∀ q, ty.toPhp = .ok q → ∃ as, q.HasAlternatives as)
    (h : (Ty.union members).toPhp = .ok p) : ∃ as, p.HasAlternatives as := by
  cases members with
  | nil => cases h
  | cons member members =>
      obtain ⟨ps, hps, h⟩ := bind_eq_ok.1 h
      cases pure_eq_ok.1 h
      rw [toPhpAll_eq_mapM] at hps
      have hdocs : ∀ s ∈ ps.map PhpTy.doc,
          ∃ as : List DocAlternative, as ≠ [] ∧ s = DocAlternative.texts as := by
        intro s hs
        obtain ⟨q, hq, rfl⟩ := List.mem_map.1 hs
        obtain ⟨as, has⟩ := forall_mem_of_mapM_eq_ok hps hmembers q hq
        exact ⟨as, has.ne_nil, has.doc⟩
      have hne : ps ≠ [] := by
        rintro rfl
        exact nomatch forall₂_of_mapM_eq_ok hps fun _ _ _ h => h
      obtain ⟨as, has, hdoc⟩ :=
        DocAlternative.exists_texts_eq_intercalate (mt List.map_eq_nil_iff.1 hne) hdocs
      exact ⟨as, has, hdoc, nofun⟩

/-- A type of which nothing is the caller's own has alternatives if its parts have. -/
theorem exists_alternatives_of_parts (hcustom : ∀ spelling, ty ≠ .custom spelling)
    (hparts : ∀ part ∈ ty.parts .php, ∀ q, part.toPhp = .ok q → ∃ as, q.HasAlternatives as)
    (h : ty.toPhp = .ok p) : ∃ as, p.HasAlternatives as := by
  cases ty with
  | any =>
      cases h
      exact ⟨_, single _ .mixed true⟩
  | str =>
      cases h
      exact ⟨_, single _ .string true⟩
  | num =>
      cases h
      exact ⟨_, single _ .int true⟩
  | bool =>
      cases h
      exact ⟨_, single _ .boolean true⟩
  | null =>
      cases h
      exact ⟨_, single _ .null true⟩
  | map _ _ =>
      cases h
      exact ⟨_, single _ .map true⟩
  | callable _ _ =>
      cases h
      exact ⟨_, single _ .callable true⟩
  | «omit» | set _ | python _ _ | typescript _ => cases h
  | literal values => exact exists_alternatives_literal h
  | optional inner =>
      obtain ⟨i, hi, h⟩ := bind_eq_ok.1 h
      cases pure_eq_ok.1 h
      obtain ⟨as, has⟩ := hparts inner (List.mem_singleton_self _) i hi
      refine ⟨[⟨.null, false⟩] ++ as, by simp, ?_, nofun⟩
      rw [DocAlternative.texts_append (List.cons_ne_nil _ _) has.ne_nil, ← has.doc]
      rfl
  | list inner | dict _ inner =>
      obtain ⟨i, hi, h⟩ := bind_eq_ok.1 h
      cases pure_eq_ok.1 h
      obtain ⟨as, has⟩ := hparts inner (List.mem_singleton_self _) i hi
      obtain ⟨a, ha, -⟩ := has.exists_arrayOf
      refine ⟨[a], List.cons_ne_nil _ _, ?_, nofun⟩
      rw [DocAlternative.texts_singleton]
      exact ha
  | union members => exact exists_alternatives_union hparts h
  | «alias» _ base => exact hparts base (List.mem_singleton_self _) p h
  | custom spelling => exact absurd rfl (hcustom spelling)

/-- A type in which nothing is the caller's own has alternatives if it can be written. -/
theorem exists_alternatives
    (hcustom : ∀ node : Ty, node.WrittenIn .php ty → ∀ spelling, node ≠ .custom spelling)
    (h : ty.toPhp = .ok p) : ∃ as, p.HasAlternatives as := by
  induction ty using induction_on_parts .php generalizing p with
  | step ty ih =>
      refine exists_alternatives_of_parts (hcustom ty (.self ty)) (fun part hpart q hq => ?_) h
      exact ih part hpart (fun node hnode => hcustom node (.part hpart hnode)) hq

/-- **Types in documentation comments.** A type that can be written, and in which nothing that is
written is the caller's own, is alternatives with bars between them, at least one: a text between
two bars is a name, or a name with one array suffix. A closed type is a single name without suffix.
Arrays of the type, as lists or as dicts, are one alternative: the name with the suffix if the type
is closed, and `mixed` for all other types, among them unions and arrays. -/
theorem doc_alternatives
    (hcustom : ∀ node : Ty, node.WrittenIn .php ty → ∀ spelling, node ≠ .custom spelling)
    (h : ty.toPhp = .ok p) :
    (∃ as : List DocAlternative, as ≠ [] ∧ p.doc = DocAlternative.texts as ∧
      p.doc.toList.splitOn '|' = (as.map fun a => a.text.toList) ∧
      (p.closed = true → ∃ name, as = [⟨name, false⟩])) ∧
    ∃ a : DocAlternative, (Ty.list ty).toPhp = .ok ⟨some "array", a.text, false⟩ ∧
      (∀ key, (Ty.dict key ty).toPhp = .ok ⟨some "array", a.text, false⟩) ∧
      ((∃ name : DocName, p.closed = true ∧ p.doc = name.text ∧ a = ⟨name, true⟩) ∨
        p.closed = false ∧ a = ⟨.mixed, false⟩) := by
  obtain ⟨as, has⟩ := exists_alternatives hcustom h
  obtain ⟨a, ha, hforms⟩ := has.exists_arrayOf
  refine ⟨⟨as, has.ne_nil, has.doc, ?_, has.closed⟩, a, ?_, fun key => ?_, hforms⟩
  · rw [has.doc]
    exact DocAlternative.splitOn_texts has.ne_nil
  · rw [toPhp, h, ← ha]
    rfl
  · rw [toPhp, h, ← ha]
    rfl

/-- A union of an optional list of a named type and of a dict of lists. What the caller spells in
the keys of the dict is not written. -/
theorem doc_alternatives_of_union :
    let ids : Ty := .list (.alias "Id" (.literal (.ofList [.int 1, .int 2])))
    let ty : Ty := .union [.optional ids, .dict (.custom ⟨none, none, none, []⟩) (.list .num)]
    (∀ node : Ty, node.WrittenIn .php ty → ∀ spelling, node ≠ .custom spelling) ∧
      ty.toPhp = .ok ⟨none, "null|int[]|mixed", false⟩ ∧
      (∃ as : List DocAlternative, as ≠ [] ∧ "null|int[]|mixed" = DocAlternative.texts as ∧
        "null|int[]|mixed".toList.splitOn '|' = as.map fun a => a.text.toList) ∧
      (Ty.list ty).toPhp = .ok ⟨some "array", "mixed", false⟩ := by
  intro ids ty
  have hcustom : ∀ node : Ty, node.WrittenIn .php ty → ∀ spelling, node ≠ .custom spelling := by
    rintro _ hnode spelling rfl
    rcases writtenIn_iff.1 hnode with hself | ⟨part, hpart, hinner⟩
    · exact Ty.noConfusion hself
    rcases List.mem_pair.1 hpart with rfl | rfl
    · have hlist := hinner.of_parts Ty.noConfusion rfl
      have hnamed := hlist.of_parts Ty.noConfusion rfl
      have hliteral := hnamed.of_parts Ty.noConfusion rfl
      rcases writtenIn_iff.1 hliteral with hself | ⟨_, hnone, _⟩
      · exact Ty.noConfusion hself
      · exact nomatch hnone
    · have hlist := hinner.of_parts Ty.noConfusion rfl
      have helement := hlist.of_parts Ty.noConfusion rfl
      rcases writtenIn_iff.1 helement with hself | ⟨_, hnone, _⟩
      · exact Ty.noConfusion hself
      · exact nomatch hnone
  have hdoc : ty.toPhp = .ok ⟨none, "null|int[]|mixed", false⟩ := rfl
  obtain ⟨⟨as, hne, htexts, hsplit, -⟩, a, hlist, -, hforms⟩ := doc_alternatives hcustom hdoc
  refine ⟨hcustom, hdoc, ⟨as, hne, htexts, hsplit⟩, ?_⟩
  rcases hforms with ⟨_, hclosed, -⟩ | ⟨-, rfl⟩
  · cases hclosed
  · exact hlist

end Ty

end Polyglot
