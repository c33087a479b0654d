import Mathlib.Data.List.Nodup
import Mathlib.Logic.Relation
import Polyglot.Building
import Polyglot.Proofs.Stmt.Constructor

/-!
# What building keeps

However long a sequence of builder calls is, and whichever of the calls are refused, the objects
under construction are well built, and what is fixed in them stays fixed.

* `Signature.Change`, `Class.Change` : all that an edit can do, as far as the rules are concerned.
* `Signature.WellBuilt`, `Class.WellBuilt` and their siblings : the rules that an object obeys.
* `Signature.Continues`, `Class.Continues` : what an object keeps for good.
* `Workbench.wellBuilt_step`, `Workbench.continues_step` : one call.
* `Workbench.wellBuilt_run_and_continues` : **any sequence of calls.**
-/

set_option autoImplicit false

namespace Polyglot

open Outcome

/-! ## Members of lists -/

section Places

variable {α : Type} {edit : α → α × Except Error Unit} {as bs cs : List α}

/-- What an edit keeps of an object, it keeps of all objects of a list. -/
theorem forall_mem_editAt {P : α → Prop} (hedit : ∀ a, P a → P (edit a).1)
    (h : ∀ a ∈ as, P a) (place : Nat) : ∀ a ∈ (editAt place edit as).1, P a := by
  intro b hb
  unfold editAt at hb
  split at hb
  · exact h b hb
  · next a ha =>
      rcases List.mem_or_eq_of_mem_set hb with hb | rfl
      · exact h b hb
      · exact hedit a (h a (List.mem_of_getElem? ha))

theorem forall_mem_concat {P : α → Prop} (h : ∀ a ∈ as, P a) {new : α} (hnew : P new) :
    ∀ a ∈ as ++ [new], P a := by
  rw [List.forall_mem_append, List.forall_mem_singleton]
  exact ⟨h, hnew⟩

/-- Every object of the first list stands at its place in the second one, as something that it can
become. -/
def Stays (R : α → α → Prop) (as bs : List α) : Prop :=
  ∀ (place : Nat) (a : α), as[place]? = some a → ∃ b, bs[place]? = some b ∧ R a b

namespace Stays

variable {R : α → α → Prop}

theorem refl (hrefl : ∀ a, R a a) (as : List α) : Stays R as as := fun _ a h => ⟨a, h, hrefl a⟩

theorem trans (htrans : ∀ a b c, R a b → R b c → R a c) (h : Stays R as bs) (h' : Stays R bs cs) :
    Stays R as cs := by
  intro place a ha
  obtain ⟨b, hb, hab⟩ := h place a ha
  obtain ⟨c, hc, hbc⟩ := h' place b hb
  exact ⟨c, hc, htrans a b c hab hbc⟩

theorem concat (hrefl : ∀ a, R a a) (as : List α) (new : α) : Stays R as (as ++ [new]) := by
  intro place a ha
  have hlt : place < as.length := (List.getElem?_eq_some_iff.1 ha).1
  exact ⟨a, by rw [List.getElem?_append_left hlt, ha], hrefl a⟩

theorem editAt (hrefl : ∀ a, R a a) (hedit : ∀ a, R a (edit a).1) (as : List α) (place : Nat) :
    Stays R as (editAt place edit as).1 := by
  unfold Polyglot.editAt
  split
  · exact refl hrefl as
  · next a ha =>
      intro place' a' ha'
      have hlt : place' < as.length := (List.getElem?_eq_some_iff.1 ha').1
      by_cases hplace : place = place'
      · subst hplace
        cases ha.symm.trans ha'
        exact ⟨(edit a).1, by rw [List.getElem?_set_self hlt], hedit a⟩
      · exact ⟨a', by rw [List.getElem?_set_ne hplace, ha'], hrefl a'⟩

end Stays

end Places

/-- A list of different names stays one if a name that is not in it is added. -/
theorem nodup_map_concat {α : Type} {name : α → String} {as : List α} (h : (as.map name).Nodup)
    {new : α} (hnew : name new ∉ as.map name) : ((as ++ [new]).map name).Nodup := by
  rw [List.map_append, List.map_singleton]
  rw [← List.concat_eq_append]
  exact List.Nodup.concat hnew h

/-! ## One edit of one object -/

/-- What an edit gives that is not refused. -/
theorem editTo_induction {α : Type} {P : α → Prop} {a : α} {x : Except Error α} (hsame : P a)
    (hnew : ∀ a', x = .ok a' → P a') : P (editTo a x).1 := by
  cases x with
  | error e => exact hsame
  | ok a' => exact hnew a' rfl

theorem map_fst_eq_ok {α β : Type} {x : Except Error (α × β)} {a : α}
    (h : x.map Prod.fst = .ok a) : ∃ b, x = .ok (a, b) := by
  cases x with
  | error e => cases h
  | ok r =>
      cases h
      exact ⟨r.2, rfl⟩

/-! ### Calls and interfaces -/

/-- Named arguments have different names. -/
def Invocation.WellBuilt (i : Invocation) : Prop := i.named.names.Nodup

theorem Invocation.wellBuilt_edit {i : Invocation} (h : i.WellBuilt) (e : Edit) :
    (i.edit e).1.WellBuilt := by
  cases e with
  | arg value => exact h
  | named name value =>
      refine editTo_induction h fun i' hi' => ?_
      cases hadd : i.named.add name value with
      | error e => simp [hadd, Except.map] at hi'
      | ok named =>
          rw [hadd] at hi'
          cases hi'
          exact Arguments.add_nodup h hadd

/-- Properties have different names. -/
def Interface.WellBuilt (i : Interface) : Prop := (i.properties.map Prod.fst).Nodup

theorem Interface.wellBuilt_edit {i : Interface} (h : i.WellBuilt) (e : Edit) :
    (i.edit e).1.WellBuilt := by
  cases e with
  | property name ty =>
      refine editTo_induction h fun i' hi' => ?_
      unfold addProperty at hi'
      split at hi'
      · cases hi'
      · next hname =>
          cases hi'
          exact nodup_map_concat h hname

/-! ### Functions -/

/-- A parameter that may be left out by default has a type that accepts the sentinel. -/
theorem ParamSpec.hasOmittable_build {spec : ParamSpec} {p : Param} (h : spec.build = .ok p)
    (hdefault : p.default = some .omit) : p.ty.hasOmittable = true := by
  obtain ⟨name, ty, default, nullable, omittable⟩ := spec
  cases omittable with
  | false =>
      -- Only a default that is no sentinel gets past the check.
      cases default with
      | none =>
          cases h
          cases hdefault
      | some d => cases d <;> cases h <;> cases hdefault
  | true =>
      cases default with
      | none | some d =>
          cases h
          exact Ty.hasOmittable_orOmit _

namespace Signature

/-- The rules for signatures: an overload changes parameters of the function only, and a parameter
with the sentinel as default has a type that accepts the sentinel. -/
structure WellBuilt (s : Signature) : Prop where
  overloads : ∀ o ∈ s.overloads, ∀ c ∈ o.changes, c.1 ∈ s.params.map Param.name
  defaults : ∀ p ∈ s.params, p.default = some .omit → p.ty.hasOmittable = true

/-- What a signature keeps: its overloads and, once there is one, its parameters. -/
structure Continues (s s' : Signature) : Prop where
  overloads : s.overloads <+: s'.overloads
  params : s.overloads ≠ [] → s'.positional = s.positional ∧ s'.keyword = s.keyword

theorem Continues.refl (s : Signature) : s.Continues s :=
  ⟨List.prefix_rfl, fun _ => ⟨rfl, rfl⟩⟩

theorem Continues.trans {s s' s'' : Signature} (h : s.Continues s') (h' : s'.Continues s'') :
    s.Continues s'' := by
  refine ⟨h.overloads.trans h'.overloads, fun hne => ?_⟩
  have hne' : s'.overloads ≠ [] := fun hnil => hne (List.prefix_nil.1 (hnil ▸ h.overloads))
  obtain ⟨hp, hk⟩ := h.params hne
  obtain ⟨hp', hk'⟩ := h'.params hne'
  exact ⟨hp'.trans hp, hk'.trans hk⟩

/-- All that an edit can do to a signature, as far as the rules are concerned. -/
inductive Change (s : Signature) : Signature → Prop where
  | other {s' : Signature} : s'.positional = s.positional → s'.keyword = s.keyword →
      s'.overloads = s.overloads → Change s s'
  | param {s' : Signature} {spec : ParamSpec} {p : Param} : spec.build = .ok p →
      s.overloads = [] → s'.overloads = [] → (∀ q ∈ s'.params, q ∈ s.params ∨ q = p) → Change s s'
  | overload {o : Overload} : (∀ c ∈ o.changes, c.1 ∈ s.params.map Param.name) →
      Change s { s with overloads := s.overloads ++ [o] }

theorem overloads_eq_nil_of_checkOpen {s : Signature} {param : String} {u : Unit}
    (h : s.checkOpen param = .ok u) : s.overloads = [] := by
  unfold checkOpen at h
  split at h
  · next hnil => exact List.isEmpty_iff.1 hnil
  · cases h

/-- A parameter is added once its specification and the signature are checked. -/
theorem exists_of_add {s s' : Signature} {spec : ParamSpec} {add : Param → Signature}
    (h : (spec.build >>= fun p => do
      s.checkOpen p.name
      return (add p, p)).map Prod.fst = .ok s') :
    ∃ p, spec.build = .ok p ∧ s.overloads = [] ∧ s' = add p := by
  obtain ⟨_, h⟩ := map_fst_eq_ok h
  obtain ⟨_, hbuild, h⟩ := bind_eq_ok.1 h
  obtain ⟨_, hopen, h⟩ := bind_eq_ok.1 h
  cases pure_eq_ok.1 h
  exact ⟨_, hbuild, overloads_eq_nil_of_checkOpen hopen, rfl⟩

theorem change_edit (s : Signature) (e : Edit) : s.Change (s.edit e).1 := by
  have hsame : s.Change s := .other rfl rfl rfl
  cases e with
  | setAbstract | setStatic | setAsync | docstring | pythonDecorator | typeScriptDecorator =>
      exact .other rfl rfl rfl
  | positional spec =>
      refine editTo_induction hsame fun s' hs' => ?_
      obtain ⟨p, hbuild, hnil, rfl⟩ := exists_of_add hs'
      refine .param hbuild hnil hnil fun q hq => ?_
      simp only [params, List.mem_append, List.mem_singleton] at hq ⊢
      tauto
  | keyword spec =>
      refine editTo_induction hsame fun s' hs' => ?_
      obtain ⟨p, hbuild, hnil, rfl⟩ := exists_of_add hs'
      refine .param hbuild hnil hnil fun q hq => ?_
      simp only [params, List.mem_append, List.mem_singleton] at hq ⊢
      tauto
  | overload o =>
      refine editTo_induction hsame fun s' hs' => ?_
      unfold addOverload at hs'
      split at hs'
      · cases hs'
      · next hfind =>
          cases hs'
          refine .overload fun c hc => ?_
          simpa using List.find?_eq_none.1 hfind c hc

theorem WellBuilt.change {s s' : Signature} (h : s.WellBuilt) (hchange : s.Change s') :
    s'.WellBuilt := by
  cases hchange with
  | other hpositional hkeyword hoverloads =>
      have hparams : s'.params = s.params := by rw [params, hpositional, hkeyword, params]
      exact ⟨by rw [hoverloads, hparams]; exact h.overloads, by rw [hparams]; exact h.defaults⟩
  | param hbuild _ hnil hparams =>
      refine ⟨by rw [hnil]; exact nofun, fun q hq => ?_⟩
      rcases hparams q hq with hold | rfl
      · exact h.defaults q hold
      · exact ParamSpec.hasOmittable_build hbuild
  | overload hknown => exact ⟨forall_mem_concat h.overloads hknown, h.defaults⟩

theorem Change.continues {s s' : Signature} (h : s.Change s') : s.Continues s' := by
  cases h with
  | other hpositional hkeyword hoverloads =>
      exact ⟨hoverloads ▸ List.prefix_rfl, fun _ => ⟨hpositional, hkeyword⟩⟩
  | param _ hnil _ _ =>
      exact ⟨by rw [hnil]; exact List.nil_prefix, fun hne => absurd hnil hne⟩
  | overload => exact ⟨List.prefix_append _ _, fun _ => ⟨rfl, rfl⟩⟩

end Signature

namespace Function

/-- The rules for functions are those for their signatures. -/
def WellBuilt (f : Function) : Prop := f.signature.WellBuilt

/-- A function keeps what its signature keeps. -/
def Continues (f f' : Function) : Prop := f.signature.Continues f'.signature

theorem wellBuilt_function (name : String) (result : Option Ty) :
    WellBuilt ⟨.function name result, .empty⟩ := ⟨nofun, nofun⟩

theorem wellBuilt_method (name : String) (result : Option Ty) :
    WellBuilt ⟨.method name result, .empty⟩ := ⟨nofun, nofun⟩

theorem wellBuilt_edit {f : Function} (h : f.WellBuilt) (e : Edit) : (f.edit e).1.WellBuilt := by
  cases e with
  | signature e => exact Signature.WellBuilt.change h (f.signature.change_edit e)
  | body e => exact h

theorem continues_edit (f : Function) (e : Edit) : f.Continues (f.edit e).1 := by
  cases e with
  | signature e => exact (f.signature.change_edit e).continues
  | body e => exact .refl f.signature

end Function

/-! ### Classes -/

namespace Class

/-- The rules for classes: properties have different names, and the constructor that follows from
them obeys the rules for signatures. -/
structure WellBuilt (c : Class) : Prop where
  properties : (c.properties.map Property.name).Nodup
  constructor : ∀ (t : Target) (k : Constructor), c.constructor t = .ok (some k) →
    k.signature.WellBuilt

/-- What a class keeps: its parents, where there is only one. -/
structure Continues (c c' : Class) : Prop where
  typeScriptParent : ∀ parent, c.typeScriptParent = some parent →
    c'.typeScriptParent = some parent
  phpParent : ∀ parent, c.phpParent = some parent → c'.phpParent = some parent

theorem Continues.refl (c : Class) : c.Continues c := ⟨fun _ h => h, fun _ h => h⟩

theorem Continues.trans {c c' c'' : Class} (h : c.Continues c') (h' : c'.Continues c'') :
    c.Continues c'' :=
  ⟨fun parent hp => h'.typeScriptParent parent (h.typeScriptParent parent hp),
    fun parent hp => h'.phpParent parent (h.phpParent parent hp)⟩

/-- All that one setting of a part can do to a class, as far as the rules are concerned. -/
inductive Change (c : Class) : Class → Prop where
  | other {c' : Class} : c'.properties = c.properties →
      c'.typeScriptParent = c.typeScriptParent → c'.phpParent = c.phpParent → Change c c'
  | typeScriptParent (parent : String) : c.typeScriptParent = none →
      Change c { c with typeScriptParent := some parent }
  | phpParent (parent : String) : c.phpParent = none →
      Change c { c with phpParent := some parent }
  | property (p : Property) : p.name ∉ c.properties.map Property.name →
      Change c { c with properties := c.properties ++ [p] }

theorem change_addPythonBase {c c' : Class} {base : String} {forwardsArgs : Bool}
    (h : c.addPythonBase base forwardsArgs = .ok c') : c.Change c' := by
  unfold addPythonBase at h
  split at h
  · cases h
  · cases h
    exact .other rfl rfl rfl

theorem change_setTypeScriptParent {c c' : Class} {parent : String}
    (h : c.setTypeScriptParent parent = .ok c') : c.Change c' := by
  unfold setTypeScriptParent at h
  split at h
  · cases h
  · next hnone =>
      cases h
      exact .typeScriptParent parent (Option.not_isSome_iff_eq_none.1 hnone)

theorem change_setPhpParent {c c' : Class} {parent : String}
    (h : c.setPhpParent parent = .ok c') : c.Change c' := by
  unfold setPhpParent at h
  split at h
  · cases h
  · next hnone =>
      cases h
      exact .phpParent parent (Option.not_isSome_iff_eq_none.1 hnone)

theorem change_addProperty {c c' : Class} {p : Property} (h : c.addProperty p = .ok c') :
    c.Change c' := by
  unfold addProperty at h
  split at h
  · cases h
  · next hname =>
      cases h
      exact .property p hname

/-- A common parent is set in up to three steps, of which the first ones stay done if a later one is
refused. -/
theorem changes_setParent (c : Class) (parent : String) :
    Relation.ReflTransGen Change c (c.setParent parent).1 := by
  unfold setParent
  split
  · exact .refl
  · next c₁ hpython =>
      have h₁ : Relation.ReflTransGen Change c c₁ := .single (change_addPythonBase hpython)
      split
      · exact h₁
      · next c₂ htypescript =>
          have h₂ := h₁.tail (change_setTypeScriptParent htypescript)
          split
          · exact h₂
          · next c₃ hphp => exact h₂.tail (change_setPhpParent hphp)

theorem changes_edit (c : Class) (e : Edit) : Relation.ReflTransGen Change c (c.edit e).1 := by
  cases e with
  | docstring | setAbstract | setDataclass | setExported | remark | imports =>
      exact .single (.other rfl rfl rfl)
  | parent name => exact changes_setParent c name
  | pythonBase => exact editTo_induction .refl fun _ h => .single (change_addPythonBase h)
  | typeScriptParent =>
      exact editTo_induction .refl fun _ h => .single (change_setTypeScriptParent h)
  | phpParent => exact editTo_induction .refl fun _ h => .single (change_setPhpParent h)
  | property => exact editTo_induction .refl fun _ h => .single (change_addProperty h)

/-- The constructor of any class obeys the rules: it has no overloads, and no parameter of it may be
left out. -/
theorem wellBuilt_constructor {c : Class} {t : Target} {k : Constructor}
    (h : c.constructor t = .ok (some k)) : k.signature.WellBuilt := by
  obtain ⟨params, hparams, hsignature, _⟩ := exists_of_constructor h
  have hbuilt : ∀ q ∈ params, q.default = some .omit → q.ty.hasOmittable = true :=
    forall_mem_of_mapM_eq_ok hparams fun _ _ _ hq => ParamSpec.hasOmittable_build hq
  have hforwarded : ∀ q ∈ c.forwardedParams t, q.default = none := by
    cases t with
    | python =>
        intro q hq
        simp only [forwardedParams] at hq
        split at hq
        · simp only [List.mem_cons, List.not_mem_nil, or_false] at hq
          rcases hq with rfl | rfl <;> rfl
        · cases hq
    | typescript | php => exact List.forall_mem_nil _
  refine ⟨fun o ho => ?_, fun q hq hdefault => ?_⟩
  · rw [overloads_of_constructor h] at ho
    cases ho
  · have hmem : q ∈ params ++ c.forwardedParams t := by
      simpa [hsignature, Signature.params, Signature.constructor, Signature.method,
        Signature.function] using hq
    rcases List.mem_append.1 hmem with hq | hq
    · exact hbuilt q hq hdefault
    · rw [hforwarded q hq] at hdefault
      cases hdefault

theorem nodup_properties_change {c c' : Class} (h : (c.properties.map Property.name).Nodup)
    (hchange : c.Change c') : (c'.properties.map Property.name).Nodup := by
  cases hchange with
  | other hproperties => rwa [hproperties]
  | typeScriptParent | phpParent => exact h
  | property p hname => exact nodup_map_concat h hname

theorem Change.continues {c c' : Class} (h : c.Change c') : c.Continues c' := by
  cases h with
  | other _ htypescript hphp =>
      exact ⟨fun _ h => htypescript.trans h, fun _ h => hphp.trans h⟩
  | typeScriptParent parent hnone =>
      exact ⟨fun _ h => absurd (hnone.symm.trans h) nofun, fun _ h => h⟩
  | phpParent parent hnone =>
      exact ⟨fun _ h => h, fun _ h => absurd (hnone.symm.trans h) nofun⟩
  | property => exact ⟨fun _ h => h, fun _ h => h⟩

theorem wellBuilt_new (name : String) : (new name).WellBuilt :=
  ⟨.nil, fun _ _ => wellBuilt_constructor⟩

theorem WellBuilt.changes {c c' : Class} (h : c.WellBuilt)
    (hchanges : Relation.ReflTransGen Change c c') : c'.WellBuilt := by
  refine ⟨?_, fun _ _ => wellBuilt_constructor⟩
  induction hchanges with
  | refl => exact h.properties
  | tail _ hchange ih => exact nodup_properties_change ih hchange

theorem Continues.of_changes {c c' : Class} (hchanges : Relation.ReflTransGen Change c c') :
    c.Continues c' := by
  induction hchanges with
  | refl => exact .refl c
  | tail _ hchange ih => exact ih.trans hchange.continues

theorem wellBuilt_edit {c : Class} (h : c.WellBuilt) (e : Edit) : (c.edit e).1.WellBuilt :=
  h.changes (c.changes_edit e)

theorem continues_edit (c : Class) (e : Edit) : c.Continues (c.edit e).1 :=
  .of_changes (c.changes_edit e)

end Class

namespace ClassDraft

/-- The rules for classes and their methods. -/
structure WellBuilt (d : ClassDraft) : Prop where
  head : d.head.WellBuilt
  methods : ∀ f ∈ d.methods, f.WellBuilt

/-- What a class and its methods keep. -/
structure Continues (d d' : ClassDraft) : Prop where
  head : d.head.Continues d'.head
  methods : Stays Function.Continues d.methods d'.methods

theorem Continues.refl (d : ClassDraft) : d.Continues d :=
  ⟨.refl d.head, .refl (fun f => .refl f.signature) d.methods⟩

theorem Continues.trans {d d' d'' : ClassDraft} (h : d.Continues d') (h' : d'.Continues d'') :
    d.Continues d'' :=
  ⟨h.head.trans h'.head,
    Stays.trans (fun _ _ _ => Signature.Continues.trans) h.methods h'.methods⟩

theorem wellBuilt_edit {d : ClassDraft} (h : d.WellBuilt) (e : Edit) :
    (d.edit e).1.WellBuilt := by
  cases e with
  | head e => exact ⟨Class.wellBuilt_edit h.head e, h.methods⟩
  | beginMethod name result =>
      exact ⟨h.head, forall_mem_concat h.methods (Function.wellBuilt_method name result)⟩
  | inMethod place e =>
      exact ⟨h.head, forall_mem_editAt (fun _ hf => Function.wellBuilt_edit hf e) h.methods place⟩

theorem continues_edit (d : ClassDraft) (e : Edit) : d.Continues (d.edit e).1 := by
  have hrefl : ∀ f : Function, f.Continues f := fun f => .refl f.signature
  cases e with
  | head e => exact ⟨Class.continues_edit d.head e, .refl hrefl d.methods⟩
  | beginMethod name result => exact ⟨.refl d.head, .concat hrefl d.methods _⟩
  | inMethod place e =>
      exact ⟨.refl d.head, .editAt hrefl (fun f => f.continues_edit e) d.methods place⟩

end ClassDraft

/-! ### Scripts -/

/-- Named types have different names. -/
def Script.WellBuilt (s : Script) : Prop := (s.aliases.map Alias.name).Nodup

theorem Script.wellBuilt_edit {s : Script} (h : s.WellBuilt) (e : Edit) :
    (s.edit e).1.WellBuilt := by
  cases e with
  | comment | body => exact h
  | namedType name base isExported =>
      refine editTo_induction h fun s' hs' => ?_
      obtain ⟨_, hadd⟩ := map_fst_eq_ok hs'
      unfold addAlias at hadd
      split at hadd
      · cases hadd
      · next hname =>
          cases hadd
          exact nodup_map_concat h hname

/-! ## Sequences of calls -/

namespace Workbench

/-- The rules for everything under construction. -/
structure WellBuilt (w : Workbench) : Prop where
  invocations : ∀ i ∈ w.invocations, i.WellBuilt
  functions : ∀ f ∈ w.functions, f.WellBuilt
  interfaces : ∀ i ∈ w.interfaces, i.WellBuilt
  classes : ∀ d ∈ w.classes, d.WellBuilt
  scripts : ∀ s ∈ w.scripts, s.WellBuilt

/-- What functions and classes under construction keep, each at its place. -/
structure Continues (w w' : Workbench) : Prop where
  functions : Stays Function.Continues w.functions w'.functions
  classes : Stays ClassDraft.Continues w.classes w'.classes

theorem Continues.refl (w : Workbench) : w.Continues w :=
  ⟨.refl (fun f => .refl f.signature) w.functions, .refl .refl w.classes⟩

theorem Continues.trans {w w' w'' : Workbench} (h : w.Continues w') (h' : w'.Continues w'') :
    w.Continues w'' :=
  ⟨Stays.trans (fun _ _ _ => Signature.Continues.trans) h.functions h'.functions,
    Stays.trans (fun _ _ _ => ClassDraft.Continues.trans) h.classes h'.classes⟩

theorem wellBuilt_empty : empty.WellBuilt := ⟨nofun, nofun, nofun, nofun, nofun⟩

/-- One call breaks no rule, whether or not it is refused. -/
theorem wellBuilt_step {w : Workbench} (h : w.WellBuilt) (call : Call) :
    (w.step call).1.WellBuilt := by
  cases call with
  | beginInvocation => exact { h with invocations := forall_mem_concat h.invocations .nil }
  | beginFunction name result =>
      exact { h with
        functions := forall_mem_concat h.functions (Function.wellBuilt_function name result) }
  | beginInterface => exact { h with interfaces := forall_mem_concat h.interfaces .nil }
  | beginClass name =>
      exact { h with
        classes := forall_mem_concat h.classes ⟨Class.wellBuilt_new name, nofun⟩ }
  | beginScript => exact { h with scripts := forall_mem_concat h.scripts .nil }
  | inInvocation place e =>
      exact { h with
        invocations :=
          forall_mem_editAt (fun _ hi => Invocation.wellBuilt_edit hi e) h.invocations place }
  | inFunction place e =>
      exact { h with
        functions :=
          forall_mem_editAt (fun _ hf => Function.wellBuilt_edit hf e) h.functions place }
  | inInterface place e =>
      exact { h with
        interfaces :=
          forall_mem_editAt (fun _ hi => Interface.wellBuilt_edit hi e) h.interfaces place }
  | inClass place e =>
      exact { h with
        classes := forall_mem_editAt (fun _ hd => ClassDraft.wellBuilt_edit hd e) h.classes place }
  | inScript place e =>
      exact { h with
        scripts := forall_mem_editAt (fun _ hs => Script.wellBuilt_edit hs e) h.scripts place }

/-- One call changes nothing that is fixed, whether or not it is refused. -/
theorem continues_step (w : Workbench) (call : Call) : w.Continues (w.step call).1 := by
  have hsame := Continues.refl w
  cases call with
  | beginFunction name result =>
      exact { hsame with functions := .concat (fun f => .refl f.signature) w.functions _ }
  | beginClass name => exact { hsame with classes := .concat .refl w.classes _ }
  | inFunction place e =>
      exact { hsame with
        functions :=
          .editAt (fun f => .refl f.signature) (fun f => f.continues_edit e) w.functions place }
  | inClass place e =>
      exact { hsame with classes := .editAt .refl (fun d => d.continues_edit e) w.classes place }
  | beginInvocation | beginInterface | beginScript | inInvocation | inInterface | inScript =>
      exact ⟨hsame.functions, hsame.classes⟩

theorem wellBuilt_run {w : Workbench} (h : w.WellBuilt) (calls : List Call) :
    (w.run calls).WellBuilt := by
  induction calls generalizing w with
  | nil => exact h
  | cons call calls ih => exact ih (wellBuilt_step h call)

theorem continues_run (w : Workbench) (calls : List Call) : w.Continues (w.run calls) := by
  induction calls generalizing w with
  | nil => exact .refl w
  | cons call calls ih => exact (continues_step w call).trans (ih _)

/-- **Any sequence of builder calls**, refused ones included, leaves everything well built, and more
calls change nothing of what is fixed by then. -/
theorem wellBuilt_run_and_continues (earlier later : List Call) :
    (empty.run earlier).WellBuilt ∧
      (empty.run earlier).Continues (empty.run (earlier ++ later)) := by
  refine ⟨wellBuilt_run wellBuilt_empty earlier, ?_⟩
  rw [run, run, List.foldl_append]
  exact continues_run (empty.run earlier) later

end Workbench

end Polyglot
