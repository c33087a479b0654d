import Polyglot.Proofs.Building.Refused

/-!
# Constructors of classes that are built

The constructor of a class follows from the edits that the class has taken. Its statements are seen
as what they do to the new object; in TypeScript the object of a class with a parent is not there
before the parent's constructor has run.

* `Class.AddedTo` : what edits add to a class; `Class.addedTo_takenAll` has it for all edits.
* `Making.Event`, `Making.run?` : what statements of a constructor do, one after the other.
* `Making.run?_of_isThere` : an object that is there gets all values.
* `Property.mapM_param` : arguments are refused only for their defaults.
* `Class.constructor_of_edits` : **the constructor of any class that is built**, and that it makes
  the object.
-/

set_option autoImplicit false

namespace Polyglot

open Outcome

variable {t : Target}

/-! ## What edits add -/

namespace Class

/-- The property that an edit adds. -/
def Edit.property? : Edit → Option Property
  | .property p => some p
  | _ => none

/-- Whether an edit adds a base that receives the further arguments. -/
def Edit.forwards : Edit → Bool
  | .pythonBase _ forwardsArgs => forwardsArgs
  | _ => false

/-- Whether the class has a parent in the language. -/
def hasParent (c : Class) : Target → Bool
  | .python => !c.pythonBases.isEmpty
  | .typescript => c.typeScriptParent.isSome
  | .php => c.phpParent.isSome

/-- Whether there are bases that receive the further arguments. -/
def basesForward (c : Class) : Bool := c.forwardsArgs && !c.pythonBases.isEmpty

/-- A class that has the parts of another one and those that edits add. -/
structure AddedTo (c : Class) (es : List Edit) (c' : Class) : Prop where
  properties : c'.properties = c.properties ++ es.filterMap Edit.property?
  hasParent : ∀ t, c'.hasParent t = (c.hasParent t || es.any (·.language? = some t))
  basesForward : c'.basesForward = (c.basesForward || es.any Edit.forwards)

variable {c c' c'' : Class} {es es' : List Edit}

theorem AddedTo.refl (c : Class) : c.AddedTo [] c where
  properties := (List.append_nil _).symm
  hasParent _ := (Bool.or_false _).symm
  basesForward := (Bool.or_false _).symm

theorem AddedTo.trans (h : c.AddedTo es c') (h' : c'.AddedTo es' c'') :
    c.AddedTo (es ++ es') c'' where
  properties := by
    rw [h'.properties, h.properties, List.filterMap_append, List.append_assoc]
  hasParent t := by
    rw [h'.hasParent, h.hasParent, List.any_append, Bool.or_assoc]
  basesForward := by
    rw [h'.basesForward, h.basesForward, List.any_append, Bool.or_assoc]

theorem eq_ok_of_editTo {x : Except Error Class} (h : (editTo c x).2 = .ok ()) :
    x = .ok (editTo c x).1 := by
  cases x with
  | ok c' => rfl
  | error err => cases h

/-- A base either agrees with the bases before it on the further arguments, or is the first. -/
theorem addedTo_addPythonBase {base : String} {forwardsArgs : Bool}
    (h : c.addPythonBase base forwardsArgs = .ok c') :
    c.AddedTo [.pythonBase base forwardsArgs] c' := by
  rw [addPythonBase] at h
  split at h
  · cases h
  · next hagree =>
      cases h
      refine ⟨(List.append_nil _).symm, fun t => ?_, ?_⟩
      · cases t <;> simp [hasParent, Edit.language?]
      · cases hbases : c.pythonBases with
        | nil => simp [basesForward, Edit.forwards, hbases]
        | cons b bs =>
            have hforwards : c.forwardsArgs = forwardsArgs := by simpa [hbases] using hagree
            simp [basesForward, Edit.forwards, hbases, hforwards]

theorem addedTo_setTypeScriptParent {parent : String}
    (h : c.setTypeScriptParent parent = .ok c') : c.AddedTo [.typeScriptParent parent] c' := by
  rw [setTypeScriptParent] at h
  split at h
  · cases h
  · cases h
    refine ⟨(List.append_nil _).symm, fun t => ?_, (Bool.or_false _).symm⟩
    cases t <;> simp [hasParent, Edit.language?]

theorem addedTo_setPhpParent {parent : String} (h : c.setPhpParent parent = .ok c') :
    c.AddedTo [.phpParent parent] c' := by
  rw [setPhpParent] at h
  split at h
  · cases h
  · cases h
    refine ⟨(List.append_nil _).symm, fun t => ?_, (Bool.or_false _).symm⟩
    cases t <;> simp [hasParent, Edit.language?]

theorem addedTo_addProperty {p : Property} (h : c.addProperty p = .ok c') :
    c.AddedTo [.property p] c' := by
  rw [addProperty] at h
  split at h
  · cases h
  · cases h
    refine ⟨rfl, fun t => ?_, (Bool.or_false _).symm⟩
    cases t <;> exact (Bool.or_false _).symm

/-- An edit that is its own only setting adds its part, if it is taken. -/
theorem addedTo_edit {e : Edit} (hsettings : e.settings = [e]) (h : (c.edit e).2 = .ok ()) :
    c.AddedTo [e] (c.edit e).1 := by
  cases e with
  | docstring | setAbstract | setDataclass | setExported | remark | imports =>
      refine ⟨(List.append_nil _).symm, fun t => ?_, (Bool.or_false _).symm⟩
      cases t <;> exact (Bool.or_false _).symm
  | parent name => cases hsettings
  | pythonBase base forwardsArgs => exact addedTo_addPythonBase (eq_ok_of_editTo h)
  | typeScriptParent parent => exact addedTo_setTypeScriptParent (eq_ok_of_editTo h)
  | phpParent parent => exact addedTo_setPhpParent (eq_ok_of_editTo h)
  | property p => exact addedTo_addProperty (eq_ok_of_editTo h)

theorem addedTo_run (hsettings : ∀ e ∈ es, e.settings = [e]) (htaken : c.taken es = es) :
    c.AddedTo es (c.run es) := by
  induction es generalizing c with
  | nil => exact .refl c
  | cons e es ih =>
      cases he : (c.edit e).2 with
      | error err =>
          rw [taken_cons_of_error he] at htaken
          cases htaken
      | ok u =>
          rw [taken_cons_of_ok he, List.cons.injEq] at htaken
          have hedit := addedTo_edit (hsettings e (List.mem_cons_self ..)) he
          exact hedit.trans (ih (fun e' he' => hsettings e' (List.mem_cons_of_mem _ he')) htaken.2)

/-- The settings of an edit have no settings but themselves. -/
theorem settings_of_mem_settings {e s : Edit} (h : s ∈ e.settings) : s.settings = [s] := by
  cases e with
  | parent name =>
      simp only [Edit.settings, List.mem_cons, List.not_mem_nil, or_false] at h
      rcases h with rfl | rfl | rfl <;> rfl
  | _ =>
      cases List.mem_singleton.1 h
      rfl

theorem settings_of_mem_takenAll (c : Class) {s : Edit} (h : s ∈ c.takenAll es) :
    s.settings = [s] := by
  induction es generalizing c with
  | nil => cases h
  | cons e es ih =>
      rcases List.mem_append.1 h with h | h
      · exact settings_of_mem_settings ((taken_isPrefix c e.settings).mem h)
      · exact ih _ h

/-- **What edits add** are the parts that are set by those settings of them that are taken. -/
theorem addedTo_takenAll (c : Class) (es : List Edit) : c.AddedTo (c.takenAll es) (c.run es) := by
  obtain ⟨hrun, htaken⟩ := run_eq_run_takenAll c es
  rw [hrun]
  exact addedTo_run (fun s => settings_of_mem_takenAll c) htaken

end Class

/-! ## What a constructor does -/

namespace Making

/-- What a statement of a constructor does to the new object: the parent's constructor runs, in
Python with all further arguments if they are handed on, or a property gets a value. -/
inductive Event where
  | parent (forwards : Bool)
  | store (name : String) (ty : Ty) (value : Expr)

/-- An object while its constructor runs: whether it is there, so that its properties can be
reached, and the values that they got, in order. -/
structure Object where
  isThere : Bool
  values : List (String × Expr)

/-- The call of the parent's constructor. -/
def parentCall (forwards : Bool) : Target → PerTarget Snippet
  | .python =>
    ⟨.code (if forwards then "super().__init__(*args, **kwargs)" else "super().__init__()"),
      .omitted, .omitted⟩
  | .typescript => ⟨.omitted, .code "super();", .omitted⟩
  | .php => ⟨.omitted, .omitted, .code "parent::__construct();"⟩

namespace Event

/-- The statement that does it. -/
def statement (t : Target) : Event → Plain
  | .parent forwards => .snippet (parentCall forwards t)
  | .store name ty value => .assign (.assign (.field name ty) value)

/-- Whether the parent's constructor runs. -/
def isParent : Event → Bool
  | .parent _ => true
  | .store .. => false

/-- The value that a property gets. -/
def value? : Event → Option (String × Expr)
  | .parent _ => none
  | .store name _ value => some (name, value)

/-- The object after a statement, if the language does not stop there. In TypeScript it is the
parent's constructor that makes an object of a class with a parent, and it cannot run for an object
that is there; what is not there gets no values. -/
def step? (t : Target) (o : Object) : Event → Option Object
  | .parent _ =>
    match t with
    | .typescript => if o.isThere then none else some { o with isThere := true }
    | .python | .php => some o
  | .store name _ value =>
    if o.isThere then some { o with values := o.values ++ [(name, value)] } else none

/-- A property gets the argument of its name. -/
def argument (p : Property) : Event := .store p.name p.ty (.var p.name (some p.ty))

/-- A property that is no argument gets its default, in TypeScript and PHP unless that is a
constant. -/
def default? (t : Target) (p : Property) : Option Event :=
  p.default.bind fun e =>
    if p.initarg = false ∧ (t = .python ∨ e.isLiteral = false) then some (.store p.name p.ty e)
    else none

end Event

/-- A new object in front of the first statement. -/
def Object.start (t : Target) (inherits : Bool) : Object :=
  ⟨!(decide (t = .typescript) && inherits), []⟩

/-- The object after several statements, if the language does not stop at one of them. -/
def run? (t : Target) (o : Object) (es : List Event) : Option Object := es.foldlM (Event.step? t) o

variable {o : Object} {es : List Event}

theorem step?_of_isThere {e : Event} (he : t ≠ .typescript ∨ e.isParent = false)
    (ho : o.isThere = true) : e.step? t o = some ⟨true, o.values ++ e.value?.toList⟩ := by
  obtain ⟨isThere, values⟩ := o
  cases ho
  cases e with
  | parent forwards =>
      have ht : t ≠ .typescript := he.resolve_right nofun
      cases t with
      | typescript => exact absurd rfl ht
      | python | php => exact congrArg some (congrArg _ (List.append_nil _).symm)
  | store name ty value => rfl

/-- An object that is there gets all values, one after the other. -/
theorem run?_of_isThere (hes : t ≠ .typescript ∨ ∀ e ∈ es, e.isParent = false)
    (ho : o.isThere = true) :
    run? t o es = some ⟨true, o.values ++ es.filterMap Event.value?⟩ := by
  induction es generalizing o with
  | nil =>
      obtain ⟨isThere, values⟩ := o
      cases ho
      exact congrArg some (congrArg _ (List.append_nil _).symm)
  | cons e es ih =>
      have he : t ≠ .typescript ∨ e.isParent = false :=
        hes.imp_right fun h => h e (List.mem_cons_self ..)
      have hrest : t ≠ .typescript ∨ ∀ e ∈ es, e.isParent = false :=
        hes.imp_right fun h e' he' => h e' (List.mem_cons_of_mem _ he')
      rw [run?, List.foldlM_cons, step?_of_isThere he ho]
      refine (ih hrest rfl).trans ?_
      cases hvalue : e.value? <;> simp [hvalue]

variable {inherits forwards : Bool} {ps : List Property}

/-- The values that properties get: arguments first, and defaults behind them. -/
def stores (t : Target) (ps : List Property) : List Event :=
  (ps.filter Property.initarg).map Event.argument ++ ps.filterMap (Event.default? t)

/-- All that a constructor does. The parent's constructor runs first in TypeScript, and between
arguments and defaults in Python and PHP. -/
def events (t : Target) (inherits forwards : Bool) (ps : List Property) : List Event :=
  let parent := if inherits then [Event.parent forwards] else []
  let arguments := (ps.filter Property.initarg).map Event.argument
  let defaults := ps.filterMap (Event.default? t)
  match t with
  | .typescript => parent ++ arguments ++ defaults
  | .python | .php => arguments ++ parent ++ defaults

theorem default?_eq_none_iff {p : Property} :
    Event.default? t p = none ↔
      ¬(p.initarg = false ∧ ∃ e, p.default = some e ∧ (t = .python ∨ e.isLiteral = false)) := by
  rw [Event.default?]
  cases p.default with
  | none => simp
  | some e => simp

/-- An argument is stored. -/
theorem stores_ne_nil {p : Property} (hp : p ∈ ps.filter Property.initarg) : stores t ps ≠ [] := by
  rw [stores]
  exact List.append_ne_nil_of_left_ne_nil (List.ne_nil_of_mem (List.mem_map_of_mem hp)) _

theorem stores_eq_nil_iff :
    stores t ps = [] ↔ (¬∃ p ∈ ps, p.initarg = true) ∧
      ¬∃ p ∈ ps, p.initarg = false ∧
        ∃ e, p.default = some e ∧ (t = .python ∨ e.isLiteral = false) := by
  rw [stores, List.append_eq_nil_iff, List.map_eq_nil_iff, List.filter_eq_nil_iff,
    List.filterMap_eq_nil_iff]
  refine and_congr ?_ ?_
  · exact ⟨fun h ⟨p, hp, hinitarg⟩ => h p hp hinitarg, fun h p hp hi => h ⟨p, hp, hi⟩⟩
  · exact ⟨fun h ⟨p, hp, hdefault⟩ => default?_eq_none_iff.1 (h p hp) hdefault,
      fun h p hp => default?_eq_none_iff.2 fun hdefault => h ⟨p, hp, hdefault⟩⟩

theorem isParent_of_mem_stores : ∀ e ∈ stores t ps, e.isParent = false := by
  intro e he
  rcases List.mem_append.1 he with he | he
  · obtain ⟨p, -, rfl⟩ := List.mem_map.1 he
    rfl
  · obtain ⟨p, -, hp⟩ := List.mem_filterMap.1 he
    obtain ⟨value, -, hvalue⟩ := Option.bind_eq_some_iff.1 hp
    split at hvalue <;> cases hvalue
    rfl

/-- The parent's constructor runs once, if there is a parent. -/
theorem countP_events :
    (events t inherits forwards ps).countP Event.isParent = if inherits then 1 else 0 := by
  have hstores : (stores t ps).countP Event.isParent = 0 :=
    List.countP_eq_zero.2 fun e he => by rw [isParent_of_mem_stores e he]; exact nofun
  rw [stores, List.countP_append, Nat.add_eq_zero_iff] at hstores
  cases t <;> cases inherits <;>
    simp [events, List.countP_append, List.countP_cons, hstores, Event.isParent]

theorem filterMap_events :
    (events t inherits forwards ps).filterMap Event.value? =
      (stores t ps).filterMap Event.value? := by
  cases t <;> cases inherits <;> simp [events, stores, List.filterMap_cons, Event.value?]

/-- A constructor runs to its end, and the object has all values then. -/
theorem run?_events :
    run? t (.start t inherits) (events t inherits forwards ps) =
      some ⟨true, (stores t ps).filterMap Event.value?⟩ := by
  by_cases ht : t = .typescript
  · subst ht
    have hthere : run? .typescript ⟨true, []⟩ (stores .typescript ps) =
        some ⟨true, (stores .typescript ps).filterMap Event.value?⟩ :=
      run?_of_isThere (.inr isParent_of_mem_stores) rfl
    -- With a parent, the object is there after the first statement.
    cases inherits with
    | false => exact hthere
    | true => exact hthere
  · have hthere : (Object.start t inherits).isThere = true := by simp [Object.start, ht]
    rw [run?_of_isThere (.inl ht) hthere, filterMap_events]
    rfl

end Making

/-! ## The constructor of a class -/

namespace Property

theorem param_of_omit {p : Property} (h : p.default = some .omit) :
    p.param = .error (.invalid (.omitDefault p.name)) := by
  rw [param, ParamSpec.build, h]

theorem param_of_ne_omit {p : Property} (h : p.default ≠ some .omit) :
    p.param = .ok ⟨p.name, p.ty, p.default⟩ := by
  obtain ⟨name, ty, default, initarg, observable, readonly⟩ := p
  cases default with
  | none => rfl
  | some e => cases e <;> first | rfl | exact absurd rfl h

/-- Arguments of a constructor are refused for a default that is the sentinel, in the order of the
properties, and for nothing else. -/
theorem mapM_param (ps : List Property) :
    (∃ p ∈ ps, p.default = some .omit ∧
      ps.mapM param = .error (.invalid (.omitDefault p.name))) ∨
    (∀ p ∈ ps, p.default ≠ some .omit) ∧
      ps.mapM param = .ok (ps.map fun p => ⟨p.name, p.ty, p.default⟩) := by
  induction ps with
  | nil => exact .inr ⟨List.forall_mem_nil _, rfl⟩
  | cons p ps ih =>
      rw [List.mapM_cons]
      by_cases hp : p.default = some .omit
      · rw [param_of_omit hp]
        exact .inl ⟨p, List.mem_cons_self .., hp, rfl⟩
      · rw [param_of_ne_omit hp, ok_bind]
        rcases ih with ⟨q, hq, hdefault, herror⟩ | ⟨hall, hparams⟩
        · rw [herror]
          exact .inl ⟨q, List.mem_cons_of_mem _ hq, hdefault, rfl⟩
        · rw [hparams]
          exact .inr ⟨List.forall_mem_cons.2 ⟨hp, hall⟩, rfl⟩

end Property

namespace Class

open Making

variable {c : Class}

theorem parentCall?_eq (c : Class) (t : Target) :
    c.parentCall? t =
      if c.hasParent t then some ((Event.parent c.basesForward).statement t) else none := by
  cases t with
  | python =>
      cases hbases : c.pythonBases with
      | nil => simp [parentCall?, hasParent, hbases]
      | cons b bs =>
          simp [parentCall?, hasParent, basesForward, hbases, Event.statement, parentCall]
  | typescript =>
      rw [parentCall?, hasParent]
      cases c.typeScriptParent <;> rfl
  | php =>
      rw [parentCall?, hasParent]
      cases c.phpParent <;> rfl

theorem storeDefault?_eq (t : Target) (p : Property) :
    storeDefault? t p = (Event.default? t p).map (Event.statement t) := by
  obtain ⟨name, ty, default, initarg, observable, readonly⟩ := p
  cases default with
  | none => cases t <;> cases initarg <;> rfl
  | some e =>
      cases initarg with
      | true => rfl
      | false =>
          cases t <;> cases he : e.isLiteral <;>
            simp [storeDefault?, Property.assignedDefault?, Event.default?, Option.filter_some, he,
              Event.statement, Property.expr]

theorem forwardedParams_eq (c : Class) (t : Target) :
    c.forwardedParams t =
      if t = .python ∧ c.basesForward = true then
        [⟨"*args", .any, none⟩, ⟨"**kwargs", .any, none⟩]
      else [] := by
  cases t with
  | python => simp [forwardedParams, basesForward]
  | typescript | php => rfl

/-- The outcome of putting a constructor together: an argument has a default that is refused, there
is nothing to store, or there is a constructor. -/
theorem constructor_cases (c : Class) (t : Target) :
    (∃ p ∈ c.initargs, p.default = some .omit ∧
      c.constructor t = .error (.invalid (.omitDefault p.name))) ∨
    (∀ p ∈ c.initargs, p.default ≠ some .omit) ∧
      c.constructor t = .ok (if stores t c.properties = [] then none else
        some ⟨.constructor
            ((c.initargs.map fun p => ⟨p.name, p.ty, p.default⟩) ++ c.forwardedParams t),
          (events t (c.hasParent t) c.basesForward c.properties).map (Event.statement t)⟩) := by
  have harguments : c.initargs.map storeArgument =
      ((c.properties.filter Property.initarg).map Event.argument).map (Event.statement t) := by
    rw [List.map_map]
    rfl
  have hdefaults : c.properties.filterMap (storeDefault? t) =
      (c.properties.filterMap (Event.default? t)).map (Event.statement t) := by
    rw [List.map_filterMap]
    exact List.filterMap_congr fun p _ => storeDefault?_eq t p
  have hparent : (c.parentCall? t).toList =
      (if c.hasParent t then [Event.parent c.basesForward] else []).map (Event.statement t) := by
    rw [parentCall?_eq]
    cases c.hasParent t <;> rfl
  have hempty : (c.initargs.isEmpty && (c.properties.filterMap (storeDefault? t)).isEmpty) = true ↔
      stores t c.properties = [] := by
    rw [hdefaults, Bool.and_eq_true, List.isEmpty_iff, List.isEmpty_iff, List.map_eq_nil_iff,
      stores, List.append_eq_nil_iff, List.map_eq_nil_iff]
    rfl
  rw [constructor]
  rcases Property.mapM_param c.initargs with ⟨p, hp, hdefault, herror⟩ | ⟨hall, hparams⟩
  · have hstores : stores t c.properties ≠ [] := stores_ne_nil hp
    rw [if_neg (mt hempty.1 hstores), herror]
    exact .inl ⟨p, hp, hdefault, rfl⟩
  · refine .inr ⟨hall, ?_⟩
    by_cases hstores : stores t c.properties = []
    · rw [if_pos (hempty.2 hstores), if_pos hstores]
    · rw [if_neg (mt hempty.1 hstores), if_neg hstores, hparams, ok_bind, hdefaults, harguments,
        hparent]
      cases t <;> simp only [events, List.map_append] <;> rfl

theorem exists_of_constructor_error {err : Error} (h : c.constructor t = .error err) :
    ∃ p ∈ c.properties, p.initarg = true ∧ p.default = some .omit ∧
      err = .invalid (.omitDefault p.name) := by
  rcases constructor_cases c t with ⟨p, hp, hdefault, herror⟩ | ⟨-, hok⟩
  · obtain ⟨hmem, hinitarg⟩ := List.mem_filter.1 hp
    rw [herror] at h
    cases h
    exact ⟨p, hmem, hinitarg, hdefault, rfl⟩
  · rw [hok] at h
    cases h

theorem exists_constructor_error_iff :
    (∃ err, c.constructor t = .error err) ↔
      ∃ p ∈ c.properties, p.initarg = true ∧ p.default = some .omit := by
  constructor
  · rintro ⟨err, h⟩
    obtain ⟨p, hmem, hinitarg, hdefault, -⟩ := exists_of_constructor_error h
    exact ⟨p, hmem, hinitarg, hdefault⟩
  · rintro ⟨p, hmem, hinitarg, hdefault⟩
    rcases constructor_cases c t with ⟨q, -, -, herror⟩ | ⟨hall, -⟩
    · exact ⟨_, herror⟩
    · exact absurd hdefault (hall p (List.mem_filter.2 ⟨hmem, hinitarg⟩))

theorem constructor_eq_none_iff : c.constructor t = .ok none ↔ stores t c.properties = [] := by
  rcases constructor_cases c t with ⟨p, hp, -, herror⟩ | ⟨-, hok⟩
  · have hstores : stores t c.properties ≠ [] := stores_ne_nil hp
    rw [herror]
    refine iff_of_false (fun h => ?_) hstores
    cases h
  · rw [hok]
    by_cases hstores : stores t c.properties = []
    · exact iff_of_true (congrArg Except.ok (if_pos hstores)) hstores
    · rw [if_neg hstores]
      refine iff_of_false (fun h => ?_) hstores
      cases h

theorem eq_of_constructor_eq_some {k : Constructor} (h : c.constructor t = .ok (some k)) :
    k = ⟨.constructor ((c.initargs.map fun p => ⟨p.name, p.ty, p.default⟩) ++ c.forwardedParams t),
      (events t (c.hasParent t) c.basesForward c.properties).map (Event.statement t)⟩ := by
  rcases constructor_cases c t with ⟨_, -, -, herror⟩ | ⟨-, hok⟩
  · rw [herror] at h
    cases h
  · rw [hok] at h
    split at h
    · cases h
    · cases h
      rfl

/-- **The constructor of a class** that was built by any edits, in any language. It is refused if
and only if an argument has the sentinel as default, and left out if and only if there is nothing
to store. Else its parameters are the arguments, in Python with the further arguments behind them
if the bases receive them; its statements store arguments and defaults and run the parent's
constructor once, if there is a parent. The statements run to their end: in TypeScript none of them
reaches for the object before the parent's constructor has made it. -/
theorem constructor_of_edits (name : String) (es : List Edit) (t : Target) :
    let c := (new name).run es
    let taken := (new name).takenAll es
    let ps := taken.filterMap Edit.property?
    let inherits := taken.any (·.language? = some t)
    let forwards := taken.any Edit.forwards
    ((∃ err, c.constructor t = .error err) ↔ ∃ p ∈ ps, p.initarg = true ∧ p.default = some .omit) ∧
    (∀ err, c.constructor t = .error err →
      ∃ p ∈ ps, p.initarg = true ∧ p.default = some .omit ∧
        err = .invalid (.omitDefault p.name)) ∧
    (c.constructor t = .ok none ↔ (¬∃ p ∈ ps, p.initarg = true) ∧
      ¬∃ p ∈ ps, p.initarg = false ∧
        ∃ e, p.default = some e ∧ (t = .python ∨ e.isLiteral = false)) ∧
    ∀ k, c.constructor t = .ok (some k) →
      k.signature = .constructor
        (((ps.filter Property.initarg).map fun p => ⟨p.name, p.ty, p.default⟩) ++
          if t = .python ∧ forwards = true then
            [⟨"*args", .any, none⟩, ⟨"**kwargs", .any, none⟩]
          else []) ∧
      k.body = (events t inherits forwards ps).map (Event.statement t) ∧
      (events t inherits forwards ps).countP Event.isParent = (if inherits then 1 else 0) ∧
      run? t (.start t inherits) (events t inherits forwards ps) =
        some ⟨true, (stores t ps).filterMap Event.value?⟩ := by
  intro c taken ps inherits forwards
  have hadded : (new name).AddedTo taken c := addedTo_takenAll (new name) es
  have hps : c.properties = ps := hadded.properties
  have hinherits : c.hasParent t = inherits := by
    rw [hadded.hasParent]
    cases t <;> exact Bool.false_or _
  have hforwards : c.basesForward = forwards := hadded.basesForward
  refine ⟨?_, fun err h => ?_, ?_, fun k h => ?_⟩
  · rw [exists_constructor_error_iff, hps]
  · rw [← hps]
    exact exists_of_constructor_error h
  · rw [constructor_eq_none_iff, hps, stores_eq_nil_iff]
  · rw [eq_of_constructor_eq_some h, forwardedParams_eq, initargs, hps, hinherits, hforwards]
    exact ⟨rfl, rfl, countP_events, run?_events⟩

/-- A pet is an animal with a species as argument and tags that are made by a call. -/
theorem constructor_of_pet :
    let es : List Edit := [.parent "Animal",
      .property ⟨"species", .str, none, true, false, false⟩,
      .property ⟨"tags", .any, some (.call "make_tags" false [] []), false, false, false⟩]
    ∃ k, ((new "Pet").run es).constructor .typescript = .ok (some k) ∧
      k.signature = .constructor [⟨"species", .str, none⟩] ∧
      run? .typescript (.start .typescript true)
        [.parent false, .store "species" .str (.var "species" (some .str)),
          .store "tags" .any (.call "make_tags" false [] [])] =
        some ⟨true, [("species", .var "species" (some .str)),
          ("tags", .call "make_tags" false [] [])]⟩ := by
  intro es
  obtain ⟨k, hk⟩ : ∃ k, ((new "Pet").run es).constructor .typescript = .ok (some k) := ⟨_, rfl⟩
  obtain ⟨-, -, -, hsome⟩ := constructor_of_edits "Pet" es .typescript
  obtain ⟨hsignature, -, -, hrun⟩ := hsome k hk
  exact ⟨k, hk, hsignature, hrun⟩

end Class

end Polyglot
