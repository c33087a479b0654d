import Polyglot.Proofs.Parameters.Taken
import Polyglot.Proofs.Properties.Constructor
import Polyglot.Proofs.Properties.Writes
import Polyglot.Proofs.Suites.Class

/-!
# Parameter lists in Python

Python asks three things of a parameter list: no two parameters have one name, no positional
parameter without default follows one with a default, and the marker for parameters that are given
by name stands once and in front of such a parameter. The lists of functions, of their overloads and
of the constructors of classes are seen as lists of entries, which say what stands in each line.

* `ParamEntry` : a line of a parameter list.
* `ParamEntry.NamesDiffer`, `ParamEntry.DefaultsLast`, `ParamEntry.MarkerFits` : what Python asks.
* `Signature.Lists` : the entries for a signature; `Signature.Lists.judged` says which of the three
  they meet.
* `Function.exists_of_toPython`, `Class.exists_of_pythonConstructor` : the lines of a function with
  its overloads, and of a constructor.
* `Signature.parameters_of_edits` : **which functions and constructors that are built have valid
  parameter lists.**
-/

set_option autoImplicit false

namespace Polyglot

open Outcome

/-! ## Entries -/

/-- A line of a parameter list: the object or class of a method, the marker behind which arguments
are given by name only, or a parameter. -/
inductive ParamEntry where
  | receiver (name : String)
  | marker
  | param (name ty : String) (default : Option String)

/-- Whether a parameter takes all further arguments. -/
def isStarred (name : String) : Bool := name.toList.head? = some '*'

/-- The name that a parameter has in the body of the function. -/
def unstarred (name : String) : String := String.ofList (name.toList.dropWhile (· = '*'))

/-- What nothing is taken of may as well not be there. -/
theorem takeWhile_append_of_eq_nil {α : Type} {p : α → Bool} {as bs : List α}
    (h : bs.takeWhile p = []) : (as ++ bs).takeWhile p = as.takeWhile p := by
  induction as with
  | nil => exact h
  | cons a as ih => rw [List.cons_append, List.takeWhile_cons, List.takeWhile_cons, ih]

namespace ParamEntry

/-- The text of the line. -/
def line : ParamEntry → String
  | .receiver name => name ++ ","
  | .marker => "*,"
  | .param name ty default =>
    name ++ ": " ++ ty ++ default.elim "" (" = " ++ ·) ++ ","

/-- The lines of a list. -/
def lines (es : List ParamEntry) : List Layout := es.map fun e => .line e.line

/-- The name of the parameter, if the line is one. -/
def name? : ParamEntry → Option String
  | .receiver name => some name
  | .marker => none
  | .param name _ _ => some (unstarred name)

/-- Whether the parameter may be left out. -/
def hasDefault : ParamEntry → Bool
  | .param _ _ default => default.isSome
  | .receiver _ | .marker => false

/-- Whether arguments can be given by position up to this line. -/
def isPositional : ParamEntry → Bool
  | .receiver _ => true
  | .marker => false
  | .param name _ _ => !isStarred name

def isMarker : ParamEntry → Bool
  | .marker => true
  | .receiver _ | .param .. => false

/-- No two parameters have one name. -/
def NamesDiffer (es : List ParamEntry) : Prop := (es.filterMap name?).Nodup

/-- No positional parameter without default follows one with a default. -/
def DefaultsLast (es : List ParamEntry) : Prop :=
  ((es.takeWhile isPositional).map hasDefault).Pairwise (· ≤ ·)

/-- The marker stands once at most, and in front of a parameter. -/
def MarkerFits (es : List ParamEntry) : Prop :=
  es.countP isMarker ≤ 1 ∧ ∀ before after, es = before ++ .marker :: after →
    ∃ name ty default rest, after = .param name ty default :: rest

/-- What can be said of a list whose parameters have the given names, and where it is known which of
the positional ones have defaults. -/
structure Judged (names : List String) (defaults : List Bool) (es : List ParamEntry) : Prop where
  marker : MarkerFits es
  names : NamesDiffer es ↔ names.Nodup
  defaults : DefaultsLast es ↔ defaults.Pairwise (· ≤ ·)

end ParamEntry

/-- The line for a parameter. -/
def Param.entry (p : Param) : Except Error ParamEntry := do
  let ty ← p.ty.pythonText
  match p.default with
  | none => return .param p.name ty none
  | some e => do
    let text ← e.pythonText
    return .param p.name ty (some text)

namespace Param

theorem exists_of_toPython {p : Param} {l : Layout} (h : p.toPython = .ok l) :
    ∃ e : ParamEntry, p.entry = .ok e ∧ l = .line e.line := by
  obtain ⟨ty, hty, h⟩ := bind_eq_ok.1 h
  obtain ⟨suffix, hsuffix, h⟩ := bind_eq_ok.1 h
  cases pure_eq_ok.1 h
  rw [entry, hty, ok_bind]
  cases hdefault : p.default with
  | none =>
      rw [hdefault] at hsuffix
      cases hsuffix
      exact ⟨_, rfl, rfl⟩
  | some e =>
      rw [hdefault] at hsuffix
      obtain ⟨text, htext, hsuffix⟩ := bind_eq_ok.1 hsuffix
      cases pure_eq_ok.1 hsuffix
      exact ⟨.param p.name ty (some text), by simp only [htext]; rfl, rfl⟩

/-- What the line for a parameter has from the parameter. -/
theorem exists_of_entry {p : Param} {e : ParamEntry} (h : p.entry = .ok e) :
    ∃ ty default, e = .param p.name ty default ∧
      default.isSome = p.default.isSome := by
  obtain ⟨ty, _, h⟩ := bind_eq_ok.1 h
  cases hdefault : p.default with
  | none =>
      simp only [hdefault] at h
      cases pure_eq_ok.1 h
      exact ⟨ty, none, rfl, rfl⟩
  | some d =>
      simp only [hdefault] at h
      obtain ⟨text, _, h⟩ := bind_eq_ok.1 h
      cases pure_eq_ok.1 h
      exact ⟨ty, some text, rfl, rfl⟩

end Param

/-- A parameter under an overload has no default. -/
theorem Overload.default_of_param? {o : Overload} {p q : Param} (h : o.param? p = some q) :
    q.default = none := by
  unfold param? at h
  split at h <;> cases h <;> rfl

/-! ## The list for a signature -/

namespace Signature

/-- The name of the parameter for the object or class of a method. -/
def receiver (s : Signature) : List String :=
  if s.isMethod then [if s.isStatic then "class_" else "self"] else []

/-- The entries are those of the parameter list for the signature. -/
def Lists (s : Signature) (es : List ParamEntry) : Prop :=
  ∃ positional keyword,
    List.Forall₂ (fun p e => p.entry = .ok e) s.positional positional ∧
    List.Forall₂ (fun p e => p.entry = .ok e) s.keyword keyword ∧
    es = s.receiver.map .receiver ++ (positional ++
      ((if s.keyword.isEmpty then [] else [.marker]) ++ keyword))

/-- The lines are those of a function with the signature, and these are the entries of its
parameter list. -/
def IsWrittenAs (s : Signature) (es : List ParamEntry) (lines : List Layout) : Prop :=
  s.Lists es ∧ ∃ above opening closing suite,
    lines = above ++ [.line opening, .nest (ParamEntry.lines es), .line closing, suite]

theorem pythonReceiver_eq (s : Signature) :
    s.pythonReceiver = ParamEntry.lines (s.receiver.map .receiver) := by
  unfold pythonReceiver receiver
  cases s.isMethod with
  | false => rfl
  | true => cases s.isStatic <;> rfl

/-- What is written for a signature, with a suite below it. -/
theorem isWrittenAs_of_pythonHead {s : Signature} {head : List Layout}
    (h : s.pythonHead = .ok head) (suite : Layout) :
    ∃ es, s.IsWrittenAs es (head ++ [suite]) := by
  obtain ⟨positional, keyword, result, hpositional, hkeyword, rfl⟩ := exists_of_pythonHead h
  obtain ⟨ps, hps, rfl⟩ :=
    exists_map_of_mapM_eq_ok hpositional fun _ _ _ h => Param.exists_of_toPython h
  obtain ⟨ks, hks, rfl⟩ :=
    exists_map_of_mapM_eq_ok hkeyword fun _ _ _ h => Param.exists_of_toPython h
  have hlist : s.pythonReceiver ++ ps.map (fun e => .line e.line) ++
      (if s.keyword.isEmpty then [] else [.line "*,"]) ++ ks.map (fun e => .line e.line) =
        ParamEntry.lines (s.receiver.map .receiver ++
          (ps ++ ((if s.keyword.isEmpty then [] else [.marker]) ++ ks))) := by
    rw [pythonReceiver_eq]
    simp only [ParamEntry.lines, List.map_append, List.append_assoc]
    cases s.keyword.isEmpty <;> rfl
  rw [hlist, List.append_assoc]
  exact ⟨_, ⟨ps, ks, hps, hks, rfl⟩, s.pythonDecorations, _, _, suite, rfl⟩

/-! ## What Python asks of the list -/

section Entries

variable {ps : List Param} {es : List ParamEntry}

/-- Every entry for a parameter is one. -/
theorem exists_param_of_mem (h : List.Forall₂ (fun p e => p.entry = .ok e) ps es) :
    ∀ e ∈ es, ∃ name ty default, e = .param name ty default := by
  induction h with
  | nil => exact nofun
  | cons hp _ ih =>
      intro e he
      rcases List.mem_cons.1 he with rfl | he
      · obtain ⟨ty, default, rfl, -⟩ := Param.exists_of_entry hp
        exact ⟨_, ty, default, rfl⟩
      · exact ih e he

theorem marker_not_mem (h : List.Forall₂ (fun p e => p.entry = .ok e) ps es) :
    ParamEntry.marker ∉ es := by
  intro hmem
  obtain ⟨name, ty, default, he⟩ := exists_param_of_mem h _ hmem
  cases he

theorem countP_isMarker (h : List.Forall₂ (fun p e => p.entry = .ok e) ps es) :
    es.countP ParamEntry.isMarker = 0 := by
  rw [List.countP_eq_zero]
  intro e he
  obtain ⟨name, ty, default, rfl⟩ := exists_param_of_mem h e he
  exact Bool.false_ne_true

theorem filterMap_name? (h : List.Forall₂ (fun p e => p.entry = .ok e) ps es) :
    es.filterMap ParamEntry.name? = ps.map fun p => unstarred p.name := by
  induction h with
  | nil => rfl
  | cons hp _ ih =>
      obtain ⟨ty, default, rfl, -⟩ := Param.exists_of_entry hp
      rw [List.map_cons, ← ih]
      rfl

/-- Which of the positional parameters in front of a starred one have defaults. -/
theorem map_hasDefault (h : List.Forall₂ (fun p e => p.entry = .ok e) ps es) :
    (es.takeWhile ParamEntry.isPositional).map ParamEntry.hasDefault =
      (ps.takeWhile fun p => !isStarred p.name).map fun p => p.default.isSome := by
  induction h with
  | nil => rfl
  | @cons p e ps es hp _ ih =>
      obtain ⟨ty, default, rfl, hdefault⟩ := Param.exists_of_entry hp
      have hpositional : (ParamEntry.param p.name ty default).isPositional =
          !isStarred p.name := rfl
      rw [List.takeWhile_cons, List.takeWhile_cons, hpositional]
      cases isStarred p.name with
      | true => rfl
      | false =>
          simp only [Bool.not_false, if_true, List.map_cons, ih]
          rw [ParamEntry.hasDefault, hdefault]

end Entries

variable {s : Signature} {es : List ParamEntry}

/-- The marker stands in front of the parameters that are given by name, if there are any. -/
theorem Lists.markerFits (h : s.Lists es) : ParamEntry.MarkerFits es := by
  obtain ⟨ps, ks, hps, hks, rfl⟩ := h
  have hreceiver : ParamEntry.marker ∉ s.receiver.map ParamEntry.receiver := by simp
  have hcount : (s.receiver.map ParamEntry.receiver).countP ParamEntry.isMarker = 0 := by
    rw [List.countP_eq_zero]
    intro e he
    obtain ⟨name, -, rfl⟩ := List.mem_map.1 he
    exact Bool.false_ne_true
  cases hkeyword : s.keyword with
  | nil =>
      rw [hkeyword] at hks
      cases hks
      constructor
      · simp [hcount, countP_isMarker hps]
      · intro before after hsplit
        have hmem : ParamEntry.marker ∈ before ++ .marker :: after := by simp
        rw [← hsplit] at hmem
        simp [marker_not_mem hps] at hmem
  | cons k rest =>
      constructor
      · simp [hcount, countP_isMarker hps, countP_isMarker hks, List.countP_cons,
          ParamEntry.isMarker]
      · intro before after hsplit
        have hfront : ParamEntry.marker ∉ s.receiver.map ParamEntry.receiver ++ ps := by
          simp [marker_not_mem hps]
        rw [List.isEmpty_cons, if_neg Bool.false_ne_true, List.singleton_append,
          ← List.append_assoc] at hsplit
        obtain ⟨-, -, rfl⟩ :=
          (List.append_cons_inj_of_notMem hfront (marker_not_mem hks)).1 hsplit
        rw [hkeyword] at hks
        cases hks with
        | cons hk hrest =>
            obtain ⟨ty, default, rfl, -⟩ := Param.exists_of_entry hk
            exact ⟨_, ty, default, _, rfl⟩

/-- What the entries are called: the receiver first, and the parameters in their order. -/
theorem Lists.filterMap_name? (h : s.Lists es) :
    es.filterMap ParamEntry.name? = s.receiver ++ s.params.map fun p => unstarred p.name := by
  obtain ⟨ps, ks, hps, hks, rfl⟩ := h
  have hreceiver : (s.receiver.map ParamEntry.receiver).filterMap ParamEntry.name? = s.receiver := by
    rw [List.filterMap_map]
    exact List.filterMap_some
  have hmarker : (if s.keyword.isEmpty then [] else [ParamEntry.marker]).filterMap
      ParamEntry.name? = [] := by
    cases s.keyword.isEmpty <;> rfl
  rw [List.filterMap_append, List.filterMap_append, List.filterMap_append, hreceiver, hmarker,
    Signature.filterMap_name? hps, Signature.filterMap_name? hks, List.nil_append, params,
    List.map_append]

/-- The receiver has no default, so it is in front of all defaults. -/
theorem Lists.defaultsLast_iff (h : s.Lists es) :
    ParamEntry.DefaultsLast es ↔
      ((s.positional.takeWhile fun p => !isStarred p.name).map fun p => p.default.isSome).Pairwise
        (· ≤ ·) := by
  obtain ⟨ps, ks, hps, hks, rfl⟩ := h
  have hrest : ((if s.keyword.isEmpty then [] else [ParamEntry.marker]) ++ ks).takeWhile
      ParamEntry.isPositional = [] := by
    cases hkeyword : s.keyword with
    | nil =>
        rw [hkeyword] at hks
        cases hks
        rfl
    | cons k rest => rfl
  have hlist : ((ps ++ ((if s.keyword.isEmpty then [] else [ParamEntry.marker]) ++ ks)).takeWhile
      ParamEntry.isPositional).map ParamEntry.hasDefault =
        (s.positional.takeWhile fun p => !isStarred p.name).map fun p => p.default.isSome := by
    rw [takeWhile_append_of_eq_nil hrest, map_hasDefault hps]
  unfold ParamEntry.DefaultsLast receiver
  cases s.isMethod with
  | false => rw [if_neg Bool.false_ne_true, List.map_nil, List.nil_append, hlist]
  | true =>
      rw [if_pos rfl, List.map_singleton, List.singleton_append]
      rw [List.takeWhile_cons_of_pos rfl, List.map_cons, hlist, List.pairwise_cons]
      exact and_iff_right fun b _ => Bool.false_le b

theorem Lists.judged (h : s.Lists es) :
    ParamEntry.Judged (s.receiver ++ s.params.map fun p => unstarred p.name)
      ((s.positional.takeWhile fun p => !isStarred p.name).map fun p => p.default.isSome) es where
  marker := h.markerFits
  names := by rw [ParamEntry.NamesDiffer, h.filterMap_name?]
  defaults := h.defaultsLast_iff

/-! ### Overloads -/

/-- The list for an overload is that of the parameters that it keeps; none of them has a default. -/
theorem judged_variant {o : Overload} (h : (s.variant o).Lists es) :
    ParamEntry.Judged
      (s.receiver ++ (s.params.filterMap o.param?).map fun p => unstarred p.name) [] es := by
  have hparams : (s.variant o).params = s.params.filterMap o.param? := by
    rw [params, params, List.filterMap_append]
    rfl
  have hjudged := h.judged
  rw [hparams] at hjudged
  refine ⟨hjudged.marker, hjudged.names, iff_of_true (hjudged.defaults.2 ?_) .nil⟩
  have hnone : ∀ b ∈ ((s.variant o).positional.takeWhile fun p => !isStarred p.name).map
      fun p => p.default.isSome, b = false := by
    intro b hb
    obtain ⟨p, hp, rfl⟩ := List.mem_map.1 hb
    have hmem := (List.takeWhile_sublist _).mem hp
    obtain ⟨q, -, hq⟩ := List.mem_filterMap.1 hmem
    rw [Overload.default_of_param? hq]
    rfl
  refine List.pairwise_of_forall_mem_list fun a ha b hb => ?_
  rw [hnone a ha]
  exact Bool.false_le b

end Signature

/-! ## Functions and constructors -/

/-- The lines of a function are those of its overloads and its own. -/
theorem Function.exists_of_toPython {f : Function} {lines : List Layout}
    (h : f.toPython = .ok lines) :
    ∃ stubs main, lines = stubs.flatten ++ main ∧ (∃ es, f.signature.IsWrittenAs es main) ∧
      List.Forall₂ (fun o stub => ∃ es, (f.signature.variant o).IsWrittenAs es stub)
        f.signature.overloads stubs := by
  obtain ⟨s, body⟩ := f
  obtain ⟨_, _, h⟩ := bind_eq_ok.1 h
  obtain ⟨overloads, hoverloads, h⟩ := bind_eq_ok.1 h
  obtain ⟨head, hhead, h⟩ := bind_eq_ok.1 h
  obtain ⟨inner, _, h⟩ := bind_eq_ok.1 h
  cases pure_eq_ok.1 h
  obtain ⟨stubs, hstubs, hoverloads⟩ := bind_eq_ok.1 hoverloads
  cases pure_eq_ok.1 hoverloads
  refine ⟨stubs, _, List.append_assoc .., Signature.isWrittenAs_of_pythonHead hhead _, ?_⟩
  refine forall₂_of_mapM_eq_ok hstubs fun o _ stub hstub => ?_
  obtain ⟨stubHead, hstubHead, hstub⟩ := bind_eq_ok.1 hstub
  cases pure_eq_ok.1 hstub
  exact Signature.isWrittenAs_of_pythonHead hstubHead _

/-- The lines of a constructor, if the class needs one. -/
theorem Class.exists_of_pythonConstructor {c : Class} {lines : List Layout}
    (h : c.pythonConstructor = .ok lines) (hne : lines ≠ []) :
    ∃ k es, c.constructor .python = .ok (some k) ∧ k.signature.IsWrittenAs es lines := by
  obtain ⟨k?, hk, h⟩ := bind_eq_ok.1 h
  cases k? with
  | none => exact absurd (pure_eq_ok.1 h).symm hne
  | some k =>
      obtain ⟨head, hhead, h⟩ := bind_eq_ok.1 h
      obtain ⟨inner, _, h⟩ := bind_eq_ok.1 h
      cases pure_eq_ok.1 h
      obtain ⟨es, hes⟩ := Signature.isWrittenAs_of_pythonHead hhead
        (k.signature.pythonSuite (k.body.any Plain.hasCode) inner)
      exact ⟨k, es, hk, hes⟩

/-- The parameters of a constructor are the arguments, and behind them those that take all further
arguments. -/
theorem Class.judged_constructor {c : Class} {k : Class.Constructor} {es : List ParamEntry}
    (hk : c.constructor .python = .ok (some k)) (h : k.signature.Lists es) :
    ParamEntry.Judged
      ("self" :: (c.initargs.map fun p => unstarred p.name) ++
        if c.basesForward then ["args", "kwargs"] else [])
      ((c.initargs.takeWhile fun p => !isStarred p.name).map fun p => p.default.isSome) es := by
  have hjudged := h.judged
  rw [eq_of_constructor_eq_some hk, forwardedParams_eq] at hjudged
  have hreceiver : ∀ ps, (Signature.constructor ps).receiver = ["self"] := fun _ => rfl
  have hparams : ∀ ps, (Signature.constructor ps).params = ps := fun ps => List.append_nil ps
  have hpositional : ∀ ps, (Signature.constructor ps).positional = ps := fun _ => rfl
  have hforwarded : ∀ forwards : Bool,
      ((if Target.python = .python ∧ forwards = true then
        [⟨"*args", .any, none⟩, ⟨"**kwargs", .any, none⟩] else [] : List Param).takeWhile
          fun p => !isStarred p.name) = [] := by
    intro forwards
    cases forwards <;> rfl
  rw [hreceiver, hparams, hpositional, takeWhile_append_of_eq_nil (hforwarded _),
    List.takeWhile_map, List.map_map, List.map_append, List.map_map] at hjudged
  cases hforward : c.basesForward with
  | false =>
      rw [hforward] at hjudged
      exact hjudged
  | true =>
      rw [hforward] at hjudged
      exact hjudged

/-- The signature of a function that is built has the parameters and overloads that are taken. -/
theorem Function.addedTo_run (f : Function) (es : List Function.Edit) :
    f.signature.AddedTo (f.signature.taken (es.filterMap Edit.signature?)) (f.run es).signature := by
  rw [signature_run]
  exact f.signature.addedTo_taken _

/-- The properties of a class that is built have different names. -/
theorem Class.nodup_properties_run (name : String) (es : List Class.Edit) :
    (((Class.new name).run es).properties.map Property.name).Nodup :=
  (wellBuilt_run (wellBuilt_new name) es).properties

namespace Signature

/-- **Parameter lists that are written in Python**, for functions and constructors that are built by
any edits. The marker always fits. The names in the list of a function differ if and only if those
of the parameters that were taken do, with that of the receiver; its defaults are last if and only
if the parameters were taken in such an order. The list for an overload has no defaults, and its
names differ if and only if those of the parameters that it keeps do. The list of a constructor has
the names of the properties that are arguments, which differ from each other as they stand, and its
defaults are last if and only if the properties are in such an order. -/
theorem parameters_of_edits (isMethod : Bool) (name className : String) (result : Option Ty)
    (es : List Function.Edit) (cs : List Class.Edit) :
    (∀ lines : List Layout,
      let start := Function.begin isMethod name result
      let f := start.run es
      let taken := start.signature.taken (es.filterMap Function.Edit.signature?)
      let positional := (taken.filterMap Edit.positional?).map ParamSpec.described
      let keyword := (taken.filterMap Edit.keyword?).map ParamSpec.described
      let receiver := if isMethod then [if f.signature.isStatic then "class_" else "self"] else []
      f.toPython = .ok lines →
      ∃ stubs main entries, lines = stubs.flatten ++ main ∧ f.signature.IsWrittenAs entries main ∧
        ParamEntry.Judged (receiver ++ (positional ++ keyword).map fun p => unstarred p.name)
          ((positional.takeWhile fun p => !isStarred p.name).map fun p => p.default.isSome)
          entries ∧
        List.Forall₂ (fun o stub => ∃ entries, (f.signature.variant o).IsWrittenAs entries stub ∧
            ParamEntry.Judged
              (receiver ++ ((positional ++ keyword).filterMap o.param?).map fun p => unstarred p.name)
              [] entries)
          (taken.filterMap Edit.overload?) stubs) ∧
    ∀ lines : List Layout,
      let c := (Class.new className).run cs
      let taken := (Class.new className).takenAll cs
      let ps := (taken.filterMap Class.Edit.property?).filter Property.initarg
      c.pythonConstructor = .ok lines → lines ≠ [] →
      (ps.map Property.name).Nodup ∧
      ∃ k entries, c.constructor .python = .ok (some k) ∧ k.signature.IsWrittenAs entries lines ∧
        ParamEntry.Judged
          ("self" :: (ps.map fun p => unstarred p.name) ++
            if taken.any Class.Edit.forwards then ["args", "kwargs"] else [])
          ((ps.takeWhile fun p => !isStarred p.name).map fun p => p.default.isSome) entries := by
  constructor
  · intro lines start f taken positional keyword receiver h
    have hadded : start.signature.AddedTo taken f.signature := start.addedTo_run es
    have hpositional : f.signature.positional = positional := by
      rw [hadded.positional]
      cases isMethod <;> rfl
    have hparams : f.signature.params = positional ++ keyword := by
      rw [params, hpositional, hadded.keyword]
      cases isMethod <;> rfl
    have hoverloads : f.signature.overloads = taken.filterMap Edit.overload? := by
      rw [hadded.overloads]
      cases isMethod <;> rfl
    have hreceiver : f.signature.receiver = receiver := by
      rw [Signature.receiver, hadded.isMethod]
      cases isMethod <;> rfl
    obtain ⟨stubs, main, rfl, ⟨entries, hwritten⟩, hstubs⟩ := Function.exists_of_toPython h
    refine ⟨stubs, main, entries, rfl, hwritten, ?_, ?_⟩
    · rw [← hreceiver, ← hparams, ← hpositional]
      exact hwritten.1.judged
    · rw [← hoverloads, ← hreceiver, ← hparams]
      refine hstubs.imp fun o stub hstub => ?_
      obtain ⟨stubEntries, hstub⟩ := hstub
      exact ⟨stubEntries, hstub, judged_variant hstub.1⟩
  · intro lines c taken ps h hne
    have hadded : (Class.new className).AddedTo taken c :=
      Class.addedTo_takenAll (Class.new className) cs
    have hps : c.initargs = ps := by
      rw [Class.initargs, hadded.properties]
      rfl
    have hforwards : c.basesForward = taken.any Class.Edit.forwards := hadded.basesForward
    have hnames : (c.properties.map Property.name).Nodup :=
      Class.nodup_properties_run className cs
    obtain ⟨k, entries, hk, hwritten⟩ := Class.exists_of_pythonConstructor h hne
    refine ⟨?_, k, entries, hk, hwritten, ?_⟩
    · rw [← hps]
      exact hnames.sublist (List.filter_sublist.map _)
    · rw [← hps, ← hforwards]
      exact Class.judged_constructor hk hwritten.1

/-- A method with a default, a parameter that is given by name and an overload without it, and a class
with a property that need not be given. -/
theorem parameters_of_scale :
    let es : List Function.Edit :=
      [.signature (.positional ⟨"factor", .num, none, false, false⟩),
        .signature (.positional ⟨"offset", .num, some (.literal (.int 0)), false, false⟩),
        .signature (.keyword ⟨"rounded", .bool, none, false, false⟩),
        .signature (.overload ⟨[("rounded", none)], none⟩)]
    let cs : List Class.Edit :=
      [.property ⟨"name", .str, none, true, false, false⟩,
        .property ⟨"age", .num, some (.literal (.int 1)), true, false, false⟩]
    (∃ (stubs : List (List Layout)) (main : List Layout) (entries : List ParamEntry),
      ((Function.begin true "scale" none).run es).toPython = .ok (stubs.flatten ++ main) ∧
        ((Function.begin true "scale" none).run es).signature.IsWrittenAs entries main ∧
        ParamEntry.MarkerFits entries ∧ ParamEntry.NamesDiffer entries ∧
        ParamEntry.DefaultsLast entries) ∧
      ∃ (lines : List Layout) (k : Class.Constructor) (entries : List ParamEntry),
        ((Class.new "Pet").run cs).pythonConstructor = .ok lines ∧
          k.signature.IsWrittenAs entries lines ∧
          ParamEntry.MarkerFits entries ∧ ParamEntry.NamesDiffer entries ∧
          ParamEntry.DefaultsLast entries := by
  intro es cs
  obtain ⟨hfunction, hclass⟩ := parameters_of_edits true "scale" "Pet" none es cs
  constructor
  · obtain ⟨lines, hlines⟩ :
        ∃ lines, ((Function.begin true "scale" none).run es).toPython = .ok lines := ⟨_, rfl⟩
    obtain ⟨stubs, main, entries, rfl, hwritten, hjudged, -⟩ := hfunction lines hlines
    refine ⟨stubs, main, entries, hlines, hwritten, hjudged.marker, ?_, ?_⟩
    · exact hjudged.names.2 (by decide)
    · exact hjudged.defaults.2 (by decide)
  · obtain ⟨l, ls, hlines⟩ :
        ∃ l ls, ((Class.new "Pet").run cs).pythonConstructor = .ok (l :: ls) := ⟨_, _, rfl⟩
    obtain ⟨-, k, entries, -, hwritten, hjudged⟩ := hclass (l :: ls) hlines (List.cons_ne_nil l ls)
    refine ⟨l :: ls, k, entries, hlines, hwritten, hjudged.marker, ?_, ?_⟩
    · exact hjudged.names.2 (by decide)
    · exact hjudged.defaults.2 (by decide)

/-- A function takes a second parameter of a name and one without default behind one with a default,
and writes them; so does the constructor of a class. -/
theorem parameters_not_checked :
    let a : ParamSpec := ⟨"a", .num, some (.literal (.int 1)), false, false⟩
    let f := (Function.begin false "f" none).run
      [.signature (.positional a), .signature (.positional ⟨"b", .num, none, false, false⟩),
        .signature (.keyword ⟨"a", .num, none, false, false⟩)]
    let entries : List ParamEntry :=
      [.param "a" "int" (some "1"), .param "b" "int" none, .marker, .param "a" "int" none]
    let c := (Class.new "C").run
      [.property ⟨"a", .num, some (.literal (.int 1)), true, false, false⟩,
        .property ⟨"b", .num, none, true, false, false⟩]
    f.toPython = .ok [.blank, .line "def f(", .nest (ParamEntry.lines entries),
        .line ") -> None:", .nest [.line "pass"]] ∧
      ¬ParamEntry.NamesDiffer entries ∧ ¬ParamEntry.DefaultsLast entries ∧
      c.pythonConstructor = .ok [.blank, .line "def __init__(",
        .nest [.line "self,", .line "a: int = 1,", .line "b: int,"], .line ") -> None:",
        .nest [.line "self.a = a", .line "self.b = b"]] := by
  refine ⟨rfl, ?_, ?_, rfl⟩
  · unfold ParamEntry.NamesDiffer
    decide
  · unfold ParamEntry.DefaultsLast
    decide

end Signature

end Polyglot
