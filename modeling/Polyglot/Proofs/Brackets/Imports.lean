import Polyglot.Proofs.Brackets.Class
import Polyglot.Proofs.Outcome

/-!
# Requirements of regular scripts

In TypeScript and PHP the types and expressions of a regular script need nothing by themselves, so a
file lists what was asked for, and the name behind the mark of observed properties.

* `Ty.imports_eq_nil`, `Expr.imports_eq_nil`, `Plain.imports_eq_nil` : parts that need nothing.
* `Body.isRegular_of_mem_needs` : every requirement of a regular body is regular.
-/

set_option autoImplicit false

namespace Polyglot

open Outcome

variable {t : Target}

/-! ## Parts that need nothing -/

namespace Ty

theorem typing_eq_nil (ht : t ≠ .python) (name : String) : typing t name = [] := by
  cases t with
  | python => exact absurd rfl ht
  | typescript | php => rfl

mutual

/-- Only opaque types need imports outside of Python. -/
theorem imports_eq_nil (ht : t ≠ .python) : ∀ ty : Ty, ty.IsRegular → ty.imports t = []
  | .any, _ | .literal _, _ => typing_eq_nil ht _
  | .str, _ | .num, _ | .bool, _ | .null, _ => rfl
  | .omit, _ => by
      cases t with
      | python => exact absurd rfl ht
      | typescript | php => rfl
  | .optional inner, hreg | .list inner, hreg | .set inner, hreg => by
      rw [imports, typing_eq_nil ht, imports_eq_nil ht inner hreg, List.append_nil]
  | .dict key value, hreg | .map key value, hreg => by
      rw [imports, typing_eq_nil ht, imports_eq_nil ht key hreg.1, imports_eq_nil ht value hreg.2,
        List.append_nil, List.append_nil]
  | .union members, hreg => by
      rw [imports, typing_eq_nil ht, importsAll_eq_nil ht members hreg, List.append_nil]
  | .callable params result, hreg => by
      rw [imports, typing_eq_nil ht, importsAll_eq_nil ht params hreg.1,
        imports_eq_nil ht result hreg.2, List.append_nil, List.append_nil]
  | .alias name base, hreg => by
      have hbase := imports_eq_nil ht base hreg.2
      cases t with
      | python => exact absurd rfl ht
      | typescript => rfl
      | php => exact hbase
  | .custom _, hreg | .python _ _, hreg | .typescript _, hreg => hreg.elim

theorem importsAll_eq_nil (ht : t ≠ .python) :
    ∀ tys : List Ty, AllRegular tys → importsAll t tys = []
  | [], _ => rfl
  | ty :: tys, hreg => by
      rw [importsAll, imports_eq_nil ht ty hreg.1, importsAll_eq_nil ht tys hreg.2, List.append_nil]

end

end Ty

mutual

/-- Only the types of casts need imports outside of Python, and regular ones do not. -/
theorem Expr.imports_eq_nil (ht : t ≠ .python) : ∀ e : Expr, e.IsRegular → e.imports t = []
  | .literal _, _ | .null, _ | .omit, _ | .var _ _, _ | .field _ _, _ => rfl
  | .list items _, hreg | .junction _ items, hreg => Expr.importsAll_eq_nil ht items hreg
  | .dict entries _, hreg => Expr.importsNamed_eq_nil ht entries hreg
  | .cast ty value, hreg => by
      rw [Expr.imports, Ty.typing_eq_nil ht, Ty.imports_eq_nil ht ty hreg.1,
        Expr.imports_eq_nil ht value hreg.2, List.append_nil, List.append_nil]
  | .item _ target key, hreg => by
      rw [Expr.imports, Expr.imports_eq_nil ht target hreg.1, Expr.imports_eq_nil ht key hreg.2,
        List.append_nil]
  | .itemOr _ target key fallback, hreg => by
      rw [Expr.imports, Expr.imports_eq_nil ht target hreg.1, Expr.imports_eq_nil ht key hreg.2.1,
        Expr.imports_eq_nil ht fallback hreg.2.2, List.append_nil, List.append_nil]
  | .prop owner _ _, hreg => Expr.imports_eq_nil ht owner hreg.1
  | .call _ _ args named, hreg => by
      rw [Expr.imports, Expr.importsAll_eq_nil ht args hreg.2.1,
        Expr.importsNamed_eq_nil ht named hreg.2.2.1, List.append_nil]
  | .apply callee _ args named, hreg => by
      rw [Expr.imports, Expr.imports_eq_nil ht callee hreg.1,
        Expr.importsAll_eq_nil ht args hreg.2.1, Expr.importsNamed_eq_nil ht named hreg.2.2.1,
        List.append_nil, List.append_nil]
  | .text parts, hreg => Part.importsAll_eq_nil ht parts hreg
  | .compare _ _ left right, hreg => by
      rw [Expr.imports, Expr.imports_eq_nil ht left hreg.1, Expr.imports_eq_nil ht right hreg.2,
        List.append_nil]
  | .not value, hreg | .length value, hreg | .isNull _ value, hreg | .isType _ value, hreg
  | .supplied value, hreg | .await value, hreg => Expr.imports_eq_nil ht value hreg
  | .only _ _, hreg | .perTarget _, hreg => hreg.elim

theorem Expr.importsAll_eq_nil (ht : t ≠ .python) :
    ∀ es : List Expr, Expr.AllRegular es → Expr.importsAll t es = []
  | [], _ => rfl
  | e :: es, hreg => by
      rw [Expr.importsAll, Expr.imports_eq_nil ht e hreg.1, Expr.importsAll_eq_nil ht es hreg.2,
        List.append_nil]

theorem Expr.importsNamed_eq_nil (ht : t ≠ .python) :
    ∀ es : List (String × Expr), Expr.NamedRegular es → Expr.importsNamed t es = []
  | [], _ => rfl
  | (name, e) :: es, hreg => by
      rw [Expr.importsNamed, Expr.imports_eq_nil ht e hreg.1,
        Expr.importsNamed_eq_nil ht es hreg.2, List.append_nil]

theorem Part.importsAll_eq_nil (ht : t ≠ .python) :
    ∀ ps : List Part, Part.AllRegular ps → Part.importsAll t ps = []
  | [], _ => rfl
  | .chars _ :: ps, hreg => Part.importsAll_eq_nil ht ps hreg
  | .value e :: ps, hreg => by
      rw [Part.importsAll, Expr.imports_eq_nil ht e hreg.1, Part.importsAll_eq_nil ht ps hreg.2,
        List.append_nil]

end

theorem Expr.importsOption_eq_nil (ht : t ≠ .python) {value : Option Expr}
    (hreg : ∀ e ∈ value, e.IsRegular) : Expr.importsOption t value = [] := by
  cases value with
  | none => rfl
  | some e => exact imports_eq_nil ht e (hreg e rfl)

theorem Ty.importsOption_eq_nil (ht : t ≠ .python) {ty : Option Ty}
    (hreg : ∀ x ∈ ty, x.IsRegular) : Ty.importsOption t ty = [] := by
  cases ty with
  | none => rfl
  | some x => exact imports_eq_nil ht x (hreg x rfl)

/-- A regular statement without a body needs nothing. -/
theorem Plain.imports_eq_nil (ht : t ≠ .python) {p : Plain} (hreg : p.IsRegular) :
    p.imports t = [] := by
  cases p with
  | blank | comment _ | snippet _ => rfl
  | expr e | ret e => exact e.imports_eq_nil ht hreg
  | raise r =>
      obtain ⟨report, anyClass, classes⟩ := r
      cases report with
      | text s => rfl
      | value e => exact e.imports_eq_nil ht (hreg.value e rfl)
  | assign a =>
      cases a with
      | assign target value =>
          rw [imports, Assignment.imports, target.imports_eq_nil ht hreg.1,
            value.imports_eq_nil ht hreg.2, List.append_nil]
      | declare name ty value =>
          rw [imports, Assignment.imports, Expr.importsOption_eq_nil ht hreg.2.2,
            Ty.importsOption_eq_nil ht hreg.2.1, List.append_nil]
  | append list value =>
      rw [imports, list.imports_eq_nil ht hreg.1, value.imports_eq_nil ht hreg.2, List.append_nil]
  | build b =>
      have hvalues : (b.entries.flatMap fun e => e.value.imports t) = [] :=
        List.flatMap_eq_nil_iff.2 fun e he => e.value.imports_eq_nil ht (hreg.values e he)
      rw [imports, DictBuilder.imports, b.valueType.imports_eq_nil ht hreg.valueType,
        Ty.typing_eq_nil ht, hvalues, List.append_nil, List.append_nil]
  | interface i =>
      exact List.flatMap_eq_nil_iff.2 fun p hp => p.2.imports_eq_nil ht (hreg.types p hp)

/-- The call of the parent's constructor needs nothing. -/
theorem Class.imports_parentCall (ht : t ≠ .python) {c : Class} {p : Plain}
    (hp : p ∈ c.parentCall? t) : p.imports t = [] := by
  cases t with
  | python => exact absurd rfl ht
  | typescript | php =>
      obtain ⟨_, _, rfl⟩ := Option.map_eq_some_iff.1 hp
      rfl

theorem Signature.imports_eq_nil (ht : t ≠ .python) {s : Signature} (hreg : s.IsRegular) :
    s.imports t = [] := by
  have hparams : s.params.flatMap (Param.imports t) = [] := by
    refine List.flatMap_eq_nil_iff.2 fun p hp => ?_
    rw [Param.imports, p.ty.imports_eq_nil ht (hreg.params p hp).ty,
      Expr.importsOption_eq_nil ht (hreg.params p hp).default, List.append_nil]
  have hown : s.ownImports t = [] := by
    rw [ownImports, hparams, Ty.importsOption_eq_nil ht hreg.result, List.append_nil]
  unfold imports
  rw [hown]
  cases t with
  | python => exact absurd rfl ht
  | typescript | php => cases s.isAbstract <;> rfl

/-! ## Everything that is needed -/

theorem Requests.isRegular_of_mem_for {rs : Requests} (hreg : rs.AreRegular) :
    ∀ i ∈ rs.for t, i.IsRegular t := by
  intro i hi
  obtain ⟨r, hr, rfl⟩ := List.mem_map.1 hi
  have hfor : r.1 = t := by simpa using (List.mem_filter.1 hr).2
  exact hfor ▸ hreg r (List.mem_of_mem_filter hr)

theorem Class.isRegular_of_mem_decorationImports (ht : t ≠ .python) (c : Class) :
    ∀ i ∈ c.decorationImports t, i.IsRegular t := by
  have hinert : isInert "observable" = true := by decide
  intro i hi
  cases t with
  | python => exact absurd rfl ht
  | typescript =>
      rw [decorationImports] at hi
      split at hi
      · rw [List.mem_singleton.1 hi]
        refine ⟨fun hphp => ?_, fun name hname => ?_⟩
        · cases hphp
        · cases hname
          exact hinert
      · cases hi
  | php => cases hi

/-- The constructor of a regular class needs nothing. -/
theorem Class.imports_constructor (ht : t ≠ .python) {c : Class} (hreg : c.IsRegular)
    {k : Constructor} (hk : c.constructor t = .ok (some k)) : k.imports t = [] := by
  have hsignature := Signature.imports_eq_nil ht (isRegular_constructor hreg ht hk)
  have hbody : k.body.flatMap (Plain.imports t) = [] := by
    refine List.flatMap_eq_nil_iff.2 fun p hp => ?_
    rcases mem_constructor_body hreg hk hp with hparent | hplain
    · exact imports_parentCall ht hparent
    · exact Plain.imports_eq_nil ht hplain
  rw [Constructor.imports, hsignature, hbody, List.append_nil]

/-- What a class needs without its methods was asked for, apart from the mark of observed
properties. -/
theorem Class.isRegular_of_mem_ownImports (ht : t ≠ .python) {c : Class} (hreg : c.IsRegular)
    {is : List Import} (h : c.ownImports t = .ok is) : ∀ i ∈ is, i.IsRegular t := by
  obtain ⟨k, hk, h⟩ := bind_eq_ok.1 h
  cases pure_eq_ok.1 h
  have hproperties : c.properties.flatMap (propertyImports t) = [] := by
    refine List.flatMap_eq_nil_iff.2 fun p hp => ?_
    have hp' := hreg.properties p hp
    rw [propertyImports, p.ty.imports_eq_nil ht hp'.ty, Expr.importsOption_eq_nil ht hp'.default,
      List.append_nil]
  intro i hi
  have hasked : i ∈ c.imports.for t ++ c.decorationImports t := by
    cases k with
    | none => simpa [hproperties] using hi
    | some k => simpa [hproperties, imports_constructor ht hreg hk] using hi
  rcases List.mem_append.1 hasked with hi | hi
  · exact Requests.isRegular_of_mem_for hreg.imports i hi
  · exact c.isRegular_of_mem_decorationImports ht i hi

mutual

/-- Every requirement of a regular body is regular. -/
theorem Body.isRegular_of_mem_needs (ht : t ≠ .python) : ∀ b : Body, b.IsRegular →
    ∀ {is : List Import}, b.needs t = .ok is → ∀ i ∈ is, i.IsRegular t
  | ⟨requests, stmts⟩, hreg, is, h => by
      obtain ⟨rest, hrest, h⟩ := bind_eq_ok.1 h
      cases pure_eq_ok.1 h
      exact List.forall_mem_append.2
        ⟨Requests.isRegular_of_mem_for hreg.1,
          Stmt.isRegular_of_mem_importsAll ht stmts hreg.2 hrest⟩

theorem Function.isRegular_of_mem_imports (ht : t ≠ .python) : ∀ f : Function, f.IsRegular →
    ∀ {is : List Import}, f.imports t = .ok is → ∀ i ∈ is, i.IsRegular t
  | ⟨signature, body⟩, hreg, is, h => by
      obtain ⟨inner, hinner, h⟩ := bind_eq_ok.1 h
      cases pure_eq_ok.1 h
      rw [Signature.imports_eq_nil ht hreg.1, List.nil_append]
      exact Body.isRegular_of_mem_needs ht body hreg.2 hinner

theorem Function.isRegular_of_mem_importsAll (ht : t ≠ .python) : ∀ fs : List Function,
    Function.AllRegular fs → ∀ {is : List Import}, Function.importsAll t fs = .ok is →
      ∀ i ∈ is, i.IsRegular t
  | [], _, is, h => by
      cases h
      exact fun i hi => nomatch hi
  | f :: fs, hreg, is, h => by
      obtain ⟨here, hhere, h⟩ := bind_eq_ok.1 h
      obtain ⟨rest, hrest, h⟩ := bind_eq_ok.1 h
      cases pure_eq_ok.1 h
      exact List.forall_mem_append.2
        ⟨Function.isRegular_of_mem_imports ht f hreg.1 hhere,
          Function.isRegular_of_mem_importsAll ht fs hreg.2 hrest⟩

theorem Branches.isRegular_of_mem_imports (ht : t ≠ .python) : ∀ bs : Branches, bs.AreRegular →
    ∀ {is : List Import}, bs.imports t = .ok is → ∀ i ∈ is, i.IsRegular t
  | .done, _, is, h => by
      cases h
      exact fun i hi => nomatch hi
  | .otherwise body, hreg, is, h => Body.isRegular_of_mem_needs ht body hreg h
  | .elseIf test body rest, hreg, is, h => by
      obtain ⟨here, hhere, h⟩ := bind_eq_ok.1 h
      obtain ⟨there, hthere, h⟩ := bind_eq_ok.1 h
      cases pure_eq_ok.1 h
      rw [test.imports_eq_nil ht hreg.1, List.nil_append]
      exact List.forall_mem_append.2
        ⟨Body.isRegular_of_mem_needs ht body hreg.2.1 hhere,
          Branches.isRegular_of_mem_imports ht rest hreg.2.2 hthere⟩

theorem Handlers.isRegular_of_mem_imports (ht : t ≠ .python) : ∀ hs : Handlers, hs.AreRegular →
    ∀ {is : List Import}, hs.imports t = .ok is → ∀ i ∈ is, i.IsRegular t
  | .done, _, is, h => by
      cases h
      exact fun i hi => nomatch hi
  | .cleanup body, hreg, is, h => Body.isRegular_of_mem_needs ht body hreg h
  | .handler arm body rest, hreg, is, h => by
      obtain ⟨here, hhere, h⟩ := bind_eq_ok.1 h
      obtain ⟨there, hthere, h⟩ := bind_eq_ok.1 h
      cases pure_eq_ok.1 h
      exact List.forall_mem_append.2
        ⟨Body.isRegular_of_mem_needs ht body hreg.2.1 hhere,
          Handlers.isRegular_of_mem_imports ht rest hreg.2.2 hthere⟩

theorem Stmt.isRegular_of_mem_imports (ht : t ≠ .python) : ∀ s : Stmt, s.IsRegular →
    ∀ {is : List Import}, s.imports t = .ok is → ∀ i ∈ is, i.IsRegular t
  | .plain p, hreg, is, h => by
      rw [Stmt.imports, p.imports_eq_nil ht hreg] at h
      cases h
      exact fun i hi => nomatch hi
  | .conditional test body branches, hreg, is, h => by
      obtain ⟨here, hhere, h⟩ := bind_eq_ok.1 h
      obtain ⟨there, hthere, h⟩ := bind_eq_ok.1 h
      cases pure_eq_ok.1 h
      rw [test.imports_eq_nil ht hreg.1, List.nil_append]
      exact List.forall_mem_append.2
        ⟨Body.isRegular_of_mem_needs ht body hreg.2.1 hhere,
          Branches.isRegular_of_mem_imports ht branches hreg.2.2 hthere⟩
  | .forEach _ iterable body, hreg, is, h => by
      obtain ⟨inner, hinner, h⟩ := bind_eq_ok.1 h
      cases pure_eq_ok.1 h
      rw [iterable.imports_eq_nil ht hreg.2.1, List.nil_append]
      exact Body.isRegular_of_mem_needs ht body hreg.2.2 hinner
  | .forEntries _ _ iterable body, hreg, is, h => by
      obtain ⟨inner, hinner, h⟩ := bind_eq_ok.1 h
      cases pure_eq_ok.1 h
      rw [iterable.imports_eq_nil ht hreg.2.2.1, List.nil_append]
      exact Body.isRegular_of_mem_needs ht body hreg.2.2.2 hinner
  | .attempt body handlers, hreg, is, h => by
      obtain ⟨here, hhere, h⟩ := bind_eq_ok.1 h
      obtain ⟨there, hthere, h⟩ := bind_eq_ok.1 h
      cases pure_eq_ok.1 h
      exact List.forall_mem_append.2
        ⟨Body.isRegular_of_mem_needs ht body hreg.1 hhere,
          Handlers.isRegular_of_mem_imports ht handlers hreg.2 hthere⟩
  | .function f, hreg, is, h => Function.isRegular_of_mem_imports ht f hreg h
  | .classDef c methods, hreg, is, h => by
      obtain ⟨own, hown, h⟩ := bind_eq_ok.1 h
      obtain ⟨rest, hrest, h⟩ := bind_eq_ok.1 h
      cases pure_eq_ok.1 h
      exact List.forall_mem_append.2
        ⟨Class.isRegular_of_mem_ownImports ht hreg.1 hown,
          Function.isRegular_of_mem_importsAll ht methods hreg.2 hrest⟩
  | .block body, hreg, is, h => Body.isRegular_of_mem_needs ht body hreg h

theorem Stmt.isRegular_of_mem_importsAll (ht : t ≠ .python) : ∀ ss : List Stmt,
    Stmt.AllRegular ss → ∀ {is : List Import}, Stmt.importsAll t ss = .ok is →
      ∀ i ∈ is, i.IsRegular t
  | [], _, is, h => by
      cases h
      exact fun i hi => nomatch hi
  | s :: ss, hreg, is, h => by
      obtain ⟨here, hhere, h⟩ := bind_eq_ok.1 h
      obtain ⟨rest, hrest, h⟩ := bind_eq_ok.1 h
      cases pure_eq_ok.1 h
      exact List.forall_mem_append.2
        ⟨Stmt.isRegular_of_mem_imports ht s hreg.1 hhere,
          Stmt.isRegular_of_mem_importsAll ht ss hreg.2 hrest⟩

end

end Polyglot
