import Polyglot.Proofs.Imports.Need
import Polyglot.Proofs.Stmt.Constructor
import Polyglot.Proofs.Stmt.Requirements
import Polyglot.Proofs.Writer.Script

/-!
# Imports cover what is written

Everything in a written file that needs an import has it: the requirements of the file are
collected by a walk of their own, which misses nothing that any of the writers writes.

* `Expr.imports_subset_of_needs`, `Plain.imports_subset_of_needs`,
  `Signature.imports_subset_of_needs`, `Class.imports_subset_of_needs` : the pieces.
* `Stmt.imports_subset_of_needs` : statements at any depth.
* `Script.exists_imports_covering` : whole files.
-/

set_option autoImplicit false

namespace Polyglot

open Outcome

variable {t : Target} {n : Need}

theorem subset_flatMap_of_mem {α β : Type} {f : α → List β} {a : α} {as : List α} (h : a ∈ as) :
    f a ⊆ as.flatMap f :=
  fun _ hb => List.mem_flatMap.2 ⟨a, h, hb⟩

/-! ## Expressions -/

theorem Expr.imports_subset_importsAll {e : Expr} {es : List Expr} (h : e ∈ es) :
    e.imports t ⊆ Expr.importsAll t es := by
  induction es with
  | nil => cases h
  | cons e' es ih =>
      rcases List.mem_cons.1 h with rfl | h
      · exact List.subset_append_left ..
      · exact List.Subset.trans (ih h) (List.subset_append_right ..)

theorem Expr.imports_subset_importsNamed {e : Expr} {es : List (String × Expr)}
    (h : e ∈ es.map Prod.snd) : e.imports t ⊆ Expr.importsNamed t es := by
  induction es with
  | nil => cases h
  | cons e' es ih =>
      obtain ⟨name, e'⟩ := e'
      rcases List.mem_cons.1 h with rfl | h
      · exact List.subset_append_left ..
      · exact List.Subset.trans (ih h) (List.subset_append_right ..)

theorem Part.imports_subset_importsAll {e : Expr} {ps : List Part}
    (h : e ∈ ps.filterMap Part.expr?) : e.imports t ⊆ Part.importsAll t ps := by
  induction ps with
  | nil => cases h
  | cons p ps ih =>
      cases p with
      | chars s => exact ih h
      | value e' =>
          rcases List.mem_cons.1 h with rfl | h
          · exact List.subset_append_left ..
          · exact List.Subset.trans (ih h) (List.subset_append_right ..)

/-- An operand needs no more than the whole expression. -/
theorem Expr.imports_subset_of_mem_operands {e inner : Expr} (h : inner ∈ e.operands) :
    inner.imports t ⊆ e.imports t := by
  cases e with
  | list items inner' | junction op items => exact imports_subset_importsAll h
  | dict entries valueType => exact imports_subset_importsNamed h
  | text parts => exact Part.imports_subset_importsAll h
  | cast ty value =>
      rw [operands, List.mem_singleton] at h
      subst h
      exact List.subset_append_right ..
  | prop | not | length | isNull | isType | supplied | await =>
      rw [operands, List.mem_singleton] at h
      subst h
      exact List.Subset.refl _
  | item selector target key =>
      simp only [operands, List.mem_cons, List.not_mem_nil, or_false] at h
      rcases h with rfl | rfl
      · exact List.subset_append_left ..
      · exact List.subset_append_right ..
  | compare op negated left right =>
      simp only [operands, List.mem_cons, List.not_mem_nil, or_false] at h
      rcases h with rfl | rfl
      · exact List.subset_append_left ..
      · exact List.subset_append_right ..
  | itemOr selector target key fallback =>
      simp only [operands, List.mem_cons, List.not_mem_nil, or_false] at h
      rcases h with rfl | rfl | rfl
      · exact List.subset_append_of_subset_left _ (List.subset_append_left ..)
      · exact List.subset_append_of_subset_left _ (List.subset_append_right ..)
      · exact List.subset_append_right ..
  | call callee construct args named =>
      rcases List.mem_append.1 h with h | h
      · exact List.subset_append_of_subset_left _ (imports_subset_importsAll h)
      · exact List.subset_append_of_subset_right _ (imports_subset_importsNamed h)
  | apply callee construct args named =>
      rcases List.mem_cons.1 h with rfl | h
      · exact List.subset_append_of_subset_left _ (List.subset_append_left ..)
      rcases List.mem_append.1 h with h | h
      · exact List.subset_append_of_subset_left _
          (List.subset_append_of_subset_right _ (imports_subset_importsAll h))
      · exact List.subset_append_of_subset_right _ (imports_subset_importsNamed h)
  | _ => cases h

/-- The casts in an expression are covered, at any depth. -/
theorem Expr.imports_subset_of_needs {e : Expr} (h : e.Needs n) : n.imports t ⊆ e.imports t := by
  induction h with
  | cast ty value =>
      refine List.subset_append_of_subset_left _ (List.subset_append_of_subset_left _ ?_)
      cases t <;> exact List.Subset.refl _
  | castType ty value =>
      exact List.subset_append_of_subset_left _ (List.subset_append_right ..)
  | operand hinner _ ih =>
      exact List.Subset.trans ih (imports_subset_of_mem_operands hinner)

/-! ## Statements without a body -/

theorem Expr.imports_subset_importsOption {e : Expr} {value : Option Expr}
    (h : e ∈ value.toList) : e.imports t ⊆ Expr.importsOption t value := by
  cases value with
  | none => cases h
  | some e' =>
      rw [Option.toList_some, List.mem_singleton] at h
      subst h
      exact List.Subset.refl _

theorem Ty.imports_subset_importsOption {ty : Ty} {value : Option Ty} (h : ty ∈ value.toList) :
    ty.imports t ⊆ Ty.importsOption t value := by
  cases value with
  | none => cases h
  | some ty' =>
      rw [Option.toList_some, List.mem_singleton] at h
      subst h
      exact List.Subset.refl _

/-- An expression needs no more than the statement. -/
theorem Plain.imports_subset_of_mem_exprs {p : Plain} {e : Expr} (h : e ∈ p.exprs) :
    e.imports t ⊆ p.imports t := by
  cases p with
  | blank | comment | snippet | interface => cases h
  | expr e' | ret e' =>
      rw [exprs, List.mem_singleton] at h
      subst h
      exact List.Subset.refl _
  | raise r =>
      obtain ⟨report, anyClass, classes⟩ := r
      cases report with
      | text s => cases h
      | value e' =>
          rw [exprs, List.mem_singleton] at h
          subst h
          exact List.Subset.refl _
  | assign a =>
      cases a with
      | assign target value =>
          simp only [exprs, List.mem_cons, List.not_mem_nil, or_false] at h
          rcases h with rfl | rfl
          · exact List.subset_append_left ..
          · exact List.subset_append_right ..
      | declare name ty value =>
          exact List.subset_append_of_subset_left _ (Expr.imports_subset_importsOption h)
  | append list value =>
      simp only [exprs, List.mem_cons, List.not_mem_nil, or_false] at h
      rcases h with rfl | rfl
      · exact List.subset_append_left ..
      · exact List.subset_append_right ..
  | build b =>
      obtain ⟨entry, hentry, rfl⟩ := List.mem_map.1 h
      refine List.subset_append_of_subset_right _ ?_
      exact subset_flatMap_of_mem (f := fun e => e.value.imports t) hentry

/-- A written type needs no more than the statement. -/
theorem Plain.imports_subset_of_mem_types {p : Plain} {ty : Ty} (h : ty ∈ p.types) :
    ty.imports t ⊆ p.imports t := by
  cases p with
  | assign a =>
      cases a with
      | assign target value => cases h
      | declare name ty' value =>
          exact List.subset_append_of_subset_right _ (Ty.imports_subset_importsOption h)
  | build b =>
      rw [types, List.mem_singleton] at h
      subst h
      refine List.subset_append_of_subset_left _ (List.append_subset.2 ⟨?_, ?_⟩)
      · exact List.append_subset.2 ⟨List.subset_append_right .., List.nil_subset _⟩
      · exact List.subset_append_left ..
  | interface i =>
      obtain ⟨q, hq, rfl⟩ := List.mem_map.1 h
      exact subset_flatMap_of_mem (f := fun q => q.2.imports t) hq
  | _ => cases h

/-- What stands in a statement without a body is covered. -/
theorem Plain.imports_subset_of_needs {p : Plain} (h : p.Needs n) : n.imports t ⊆ p.imports t := by
  cases h with
  | expr he hn =>
      exact List.Subset.trans (Expr.imports_subset_of_needs hn) (imports_subset_of_mem_exprs he)
  | type hty => exact imports_subset_of_mem_types hty
  | dictBuilder b =>
      refine List.subset_append_of_subset_left _ (List.subset_append_of_subset_right _ ?_)
      cases t <;> exact List.Subset.refl _

/-! ## Functions -/

namespace Signature

theorem imports_subset_of_mem_types {s : Signature} {ty : Ty} (h : ty ∈ s.types) :
    ty.imports t ⊆ s.ownImports t := by
  rcases List.mem_append.1 h with h | h
  · obtain ⟨p, hp, rfl⟩ := List.mem_map.1 h
    have hparam : p.ty.imports t ⊆ p.imports t := List.subset_append_left ..
    exact List.subset_append_of_subset_left _ (List.Subset.trans hparam (subset_flatMap_of_mem hp))
  · exact List.subset_append_of_subset_right _ (Ty.imports_subset_importsOption h)

theorem imports_subset_of_mem_defaults {s : Signature} {e : Expr} (h : e ∈ s.defaults) :
    e.imports t ⊆ s.ownImports t := by
  obtain ⟨p, hp, he⟩ := List.mem_filterMap.1 h
  have hparam : e.imports t ⊆ p.imports t :=
    List.subset_append_of_subset_right _
      (Expr.imports_subset_importsOption (Option.mem_toList.2 he))
  exact List.subset_append_of_subset_left _ (List.Subset.trans hparam (subset_flatMap_of_mem hp))

theorem ownImports_subset (s : Signature) : s.ownImports t ⊆ s.imports t :=
  List.subset_append_right ..

/-- The overloads of a function in Python are covered, each with its mark. -/
theorem imports_variant_subset {s : Signature} {o : Overload} (h : o ∈ s.overloads) :
    .whole "typing" :: (s.variant o).imports .python ⊆ s.imports .python := by
  refine List.subset_append_of_subset_left _ (List.subset_append_of_subset_right _ ?_)
  exact subset_flatMap_of_mem
    (f := fun o => Import.whole "typing" :: (s.variant o).ownImports .python) h

/-- What stands in a signature is covered, where its overloads are written. -/
theorem imports_subset_of_needs {s : Signature} (hs : t ≠ .python → s.overloads = [])
    (h : s.Needs n) : n.imports t ⊆ s.imports t := by
  induction h with
  | type hty => exact List.Subset.trans (imports_subset_of_mem_types hty) (ownImports_subset _)
  | default he hn =>
      have hown := List.Subset.trans (Expr.imports_subset_of_needs (t := t) hn)
        (imports_subset_of_mem_defaults he)
      exact List.Subset.trans hown (ownImports_subset _)
  | @abstract s habstract =>
      refine List.subset_append_of_subset_left _ (List.subset_append_of_subset_left _ ?_)
      rw [if_pos habstract]
      exact List.Subset.refl _
  | overload ho =>
      cases t with
      | python =>
          intro i hi
          rw [Need.imports, Import.ifPython, List.mem_singleton] at hi
          subst hi
          exact imports_variant_subset ho (List.mem_cons_self ..)
      | typescript | php => exact List.nil_subset _
  | variant ho _ ih =>
      by_cases ht : t = .python
      · subst ht
        have hvariant := imports_variant_subset ho
        exact List.Subset.trans (ih fun h => absurd rfl h)
          (List.Subset.trans (List.subset_cons_self ..) hvariant)
      · rw [hs ht] at ho
        cases ho

end Signature

/-! ## Classes -/

namespace Class

theorem constructor_imports_subset {c : Class} {own : List Import} (h : c.ownImports t = .ok own)
    {k : Constructor} (hk : c.constructor t = .ok (some k)) : k.imports t ⊆ own := by
  obtain ⟨_, hk', h⟩ := bind_eq_ok.1 h
  cases hk.symm.trans hk'
  cases pure_eq_ok.1 h
  exact List.subset_append_right ..

theorem decorationImports_subset {c : Class} {own : List Import} (h : c.ownImports t = .ok own) :
    c.decorationImports t ⊆ own := by
  obtain ⟨_, _, h⟩ := bind_eq_ok.1 h
  cases pure_eq_ok.1 h
  exact List.subset_append_of_subset_left _
    (List.subset_append_of_subset_left _ (List.subset_append_right ..))

theorem propertyImports_subset {c : Class} {own : List Import} (h : c.ownImports t = .ok own)
    {p : Property} (hp : p ∈ c.properties) : propertyImports t p ⊆ own := by
  obtain ⟨_, _, h⟩ := bind_eq_ok.1 h
  cases pure_eq_ok.1 h
  exact List.subset_append_of_subset_left _
    (List.subset_append_of_subset_right _ (subset_flatMap_of_mem hp))

/-- What stands in a class outside its methods is covered. -/
theorem imports_subset_of_needs {c : Class} {own : List Import} (h : c.ownImports t = .ok own)
    (hn : c.Needs t n) : n.imports t ⊆ own := by
  have hdecoration := decorationImports_subset h
  cases hn with
  | abstract habstract =>
      refine List.Subset.trans ?_ hdecoration
      cases t with
      | python =>
          rw [decorationImports, if_pos habstract]
          exact List.subset_append_left ..
      | typescript | php => exact List.nil_subset _
  | dataclass hdataclass =>
      refine List.Subset.trans ?_ hdecoration
      cases t with
      | python =>
          rw [decorationImports, if_pos hdataclass]
          exact List.subset_append_right ..
      | typescript | php => exact List.nil_subset _
  | observable hp hobservable =>
      refine List.Subset.trans ?_ hdecoration
      cases t with
      | typescript =>
          rw [decorationImports, if_pos (List.any_eq_true.2 ⟨_, hp, hobservable⟩)]
          exact List.Subset.refl _
      | python | php => exact List.nil_subset _
  | property hp =>
      exact List.Subset.trans (List.subset_append_left ..) (propertyImports_subset h hp)
  | default hp he hn =>
      have hdefault := Expr.imports_subset_importsOption (t := t) (Option.mem_toList.2 he)
      have hproperty := List.Subset.trans (List.subset_append_of_subset_right _ hdefault)
        (propertyImports_subset h hp)
      exact List.Subset.trans (Expr.imports_subset_of_needs hn) hproperty
  | constructor hk hn =>
      have hsignature := Signature.imports_subset_of_needs (t := t)
        (fun _ => overloads_of_constructor hk) hn
      exact List.Subset.trans (List.subset_append_of_subset_left _ hsignature)
        (constructor_imports_subset h hk)
  | store hk hp hn =>
      have hbody := List.Subset.trans (Plain.imports_subset_of_needs (t := t) hn)
        (subset_flatMap_of_mem hp)
      exact List.Subset.trans (List.subset_append_of_subset_right _ hbody)
        (constructor_imports_subset h hk)

end Class

/-! ## Statements and scripts -/

/-- What stands in a statement that can be written is covered, at any depth. -/
theorem Stmt.imports_subset_of_needs {s : Stmt} {is : List Import} (hr : s.Renders t)
    (h : s.NeedsOnly t is) (hn : s.Needs t n) : n.imports t ⊆ is := by
  induction hn with
  | plain hn =>
      obtain ⟨own, h, hsub⟩ := h
      cases h
      exact List.Subset.trans (Plain.imports_subset_of_needs hn) hsub
  | expr he hn =>
      exact List.Subset.trans (Expr.imports_subset_of_needs hn) (imports_subset_of_mem_exprs h he)
  | function hf hn =>
      have hoverloads := Function.overloads_eq_nil (renders_of_mem_functions hr hf)
      exact List.Subset.trans (Signature.imports_subset_of_needs hoverloads hn)
        (needsOnly_of_mem_functions h hf).parts.1
  | classDef hn =>
      obtain ⟨own, hown, hsub⟩ := h.classDef.1
      exact List.Subset.trans (Class.imports_subset_of_needs hown hn) hsub
  | inner hb hs _ ih =>
      exact ih (Body.renders_of_mem (renders_of_mem_bodies hr hb) hs)
        (Body.needsOnly_of_mem (needsOnly_of_mem_bodies h hb) hs)

namespace Script

/-- A script that is written has a written body and known requirements. -/
theorem parts_of_write {s : Script} {o : Options} {text : String} (h : s.write t o = .ok text) :
    s.body.Renders t ∧ ∃ is, s.imports t = .ok is := by
  rw [write_eq] at h
  obtain ⟨lines, h, _⟩ := bind_eq_ok.1 h
  cases t with
  | python | typescript =>
      obtain ⟨is, his, h⟩ := bind_eq_ok.1 h
      obtain ⟨_, _, h⟩ := bind_eq_ok.1 h
      obtain ⟨ls, hls, _⟩ := bind_eq_ok.1 h
      exact ⟨⟨ls, hls⟩, is, his⟩
  | php =>
      obtain ⟨is, his, h⟩ := bind_eq_ok.1 h
      obtain ⟨ls, hls, _⟩ := bind_eq_ok.1 h
      exact ⟨⟨ls, hls⟩, is, his⟩

theorem imports_parts {s : Script} {is : List Import} (h : s.imports t = .ok is) :
    s.body.NeedsOnly t is ∧ s.aliasImports t ⊆ is := by
  obtain ⟨own, hown, h⟩ := bind_eq_ok.1 h
  cases pure_eq_ok.1 h
  exact ⟨⟨own, hown, List.subset_append_left ..⟩, List.subset_append_right ..⟩

/-- The base of a named type is covered where named types are declared. -/
theorem base_imports_subset {s : Script} {a : Alias} (ht : t ≠ .php) (ha : a ∈ s.aliases) :
    a.base.imports t ⊆ s.aliasImports t := by
  cases t with
  | python =>
      exact List.subset_append_of_subset_left _
        (subset_flatMap_of_mem (f := fun a : Alias => a.base.imports .python) ha)
  | typescript => exact subset_flatMap_of_mem (f := fun a : Alias => a.base.imports .typescript) ha
  | php => exact absurd rfl ht

/-- The declaration of named types is covered. -/
theorem newType_imports_subset {s : Script} {a : Alias} (ha : a ∈ s.aliases) :
    Need.newType.imports t ⊆ s.aliasImports t := by
  cases t with
  | python =>
      refine List.subset_append_of_subset_right _ ?_
      rw [if_neg (by simpa using List.ne_nil_of_mem ha)]
      exact List.Subset.refl _
  | typescript | php => exact List.nil_subset _

/-- **Import coverage.** A script that is written has known requirements, and they cover everything
that stands in the written file. -/
theorem exists_imports_covering {s : Script} {o : Options} {text : String}
    (h : s.write t o = .ok text) :
    ∃ is, s.imports t = .ok is ∧ ∀ n, s.Needs t n → n.imports t ⊆ is := by
  obtain ⟨hbody, is, his⟩ := parts_of_write h
  obtain ⟨hneeds, haliases⟩ := imports_parts his
  refine ⟨is, his, fun n hn => ?_⟩
  cases hn with
  | stmt hst hn =>
      exact Stmt.imports_subset_of_needs (Body.renders_of_mem hbody hst)
        (Body.needsOnly_of_mem hneeds hst) hn
  | base ht ha => exact List.Subset.trans (base_imports_subset ht ha) haliases
  | newType ha => exact List.Subset.trans (newType_imports_subset ha) haliases

/-- The test in `scaledShape`, with a cast in a list in its arm. -/
def scaledShapeTest : Stmt :=
  .conditional (.var "by" none) ⟨[], [.plain (.ret (.list [.cast .num (.var "by" none)] .num))]⟩
    .done

/-- The method of `scaledShape`, with an overload. -/
def scaledShapeMethod : Function where
  signature := { Signature.method "scale" (some (.list .num)) with
    positional := [⟨"by", .any, none⟩]
    overloads := [⟨[("by", some (.optional .num))], some (.list .num)⟩] }
  body := ⟨[], [scaledShapeTest]⟩

/-- An abstract class with a property and a method. -/
def scaledShape : Script where
  body := ⟨[], [.classDef
    { Class.new "Shape" with
      isAbstract := true
      properties := [⟨"size", .num, none, true, false, false⟩] }
    [scaledShapeMethod]]⟩
  comments := []
  aliases := []

theorem scaledShape_imports_covering :
    (∃ text, scaledShape.write .python .default = .ok text) ∧
      ∃ is, scaledShape.imports .python = .ok is ∧ .named "typing" "cast" ∈ is ∧
        .named "typing" "Optional" ∈ is ∧ .whole "typing" ∈ is ∧ .whole "abc" ∈ is := by
  have hwrite : ∃ text, scaledShape.write .python .default = .ok text := ⟨_, rfl⟩
  refine ⟨hwrite, ?_⟩
  obtain ⟨text, h⟩ := hwrite
  obtain ⟨is, his, hall⟩ := exists_imports_covering h
  have hfunction : ∀ {n : Need}, scaledShapeMethod.signature.Needs n →
      scaledShape.Needs .python n := fun hn =>
    .stmt (List.mem_singleton_self _) (.function (List.mem_singleton_self _) hn)
  have hcast : scaledShapeTest.Needs .python .cast :=
    .inner (List.mem_singleton_self _) (List.mem_singleton_self _)
      (.plain (.expr (List.mem_singleton_self _)
        (.operand (List.mem_singleton_self _) (.cast _ _))))
  have hvariant : scaledShapeMethod.signature.Needs (.type (.optional .num)) :=
    .variant (List.mem_singleton_self _) (.type (List.mem_cons_self ..))
  refine ⟨is, his, hall .cast ?_ (List.mem_singleton_self _),
    hall (.type (.optional .num)) (hfunction hvariant) (List.mem_singleton_self _),
    hall .overload (hfunction (.overload (List.mem_singleton_self _))) (List.mem_singleton_self _),
    hall .abstract ?_ (List.mem_singleton_self _)⟩
  · exact .stmt (List.mem_singleton_self _)
      (.inner (List.mem_singleton_self _) (List.mem_singleton_self _) hcast)
  · exact .stmt (List.mem_singleton_self _) (.classDef (.abstract rfl))

end Script

end Polyglot
