import Polyglot.Building
import Polyglot.Proofs.Isolation.Stmt
import Polyglot.Proofs.Stmt.Render

/-!
# Edits of classes that are refused

An edit of a class comes to settings of single parts: a common parent is a parent for one language
after the other, every other edit is its own only setting. A setting that is refused changes
nothing. An edit stops at the first setting that is refused, and those before it stay.

* `Class.taken` : the settings before the first one that is refused.
* `Class.edit_eq_run_taken` : what any edit leaves, and when it is refused.
* `Class.seenBy_edit`, `Class.layout_edit_of_error` : a setting changes nothing for another language.
* `Class.run_eq_run_takenAll` : a class is built by the settings that are taken.
* `Class.edit_refused` : **what a refused edit leaves of any class under construction.**
-/

set_option autoImplicit false

namespace Polyglot.Class

/-- The class after edits one after the other. Edits that are refused do not end the sequence. -/
def run (c : Class) (es : List Edit) : Class := es.foldl (fun c e => (c.edit e).1) c

/-- What an edit sets, part by part. -/
def Edit.settings : Edit → List Edit
  | .parent name => [.pythonBase name false, .typeScriptParent name, .phpParent name]
  | e => [e]

/-- The language that the edit is for, if it is for one. -/
def Edit.language? : Edit → Option Target
  | .pythonBase .. => some .python
  | .typeScriptParent _ => some .typescript
  | .phpParent _ => some .php
  | _ => none

/-- The edits in front of the first one that is refused. -/
def taken (c : Class) : List Edit → List Edit
  | [] => []
  | e :: es =>
    match c.edit e with
    | (c', .ok ()) => e :: c'.taken es
    | (_, .error _) => []

def takenAll (c : Class) : List Edit → List Edit
  | [] => []
  | e :: es => c.taken e.settings ++ (c.edit e).1.takenAll es

variable {c : Class}

theorem run_append (c : Class) (es es' : List Edit) : c.run (es ++ es') = (c.run es).run es' :=
  List.foldl_append

/-! ## What is taken -/

theorem taken_cons_of_ok {e : Edit} (h : (c.edit e).2 = .ok ()) (es : List Edit) :
    c.taken (e :: es) = e :: (c.edit e).1.taken es := by
  rw [taken]
  split
  · next heq => rw [heq]
  · next heq =>
      rw [heq] at h
      cases h

theorem taken_cons_of_error {e : Edit} {err : Error} (h : (c.edit e).2 = .error err)
    (es : List Edit) : c.taken (e :: es) = [] := by
  rw [taken]
  split
  · next heq =>
      rw [heq] at h
      cases h
  · rfl

theorem taken_isPrefix (c : Class) (es : List Edit) : c.taken es <+: es := by
  induction es generalizing c with
  | nil => exact List.prefix_rfl
  | cons e es ih =>
      cases h : (c.edit e).2 with
      | ok u =>
          rw [taken_cons_of_ok h]
          exact (List.prefix_cons_inj e).2 (ih _)
      | error err =>
          rw [taken_cons_of_error h]
          exact List.nil_prefix

theorem taken_nil (c : Class) : c.taken [] = [] := rfl

/-- Edits that are all taken are followed by what is taken of the rest. -/
theorem taken_append {es : List Edit} (h : c.taken es = es) (es' : List Edit) :
    c.taken (es ++ es') = es ++ (c.run es).taken es' := by
  induction es generalizing c with
  | nil => rfl
  | cons e es ih =>
      cases he : (c.edit e).2 with
      | error err =>
          rw [taken_cons_of_error he] at h
          cases h
      | ok u =>
          rw [taken_cons_of_ok he, List.cons.injEq] at h
          rw [List.cons_append, taken_cons_of_ok he, ih h.2]
          rfl

/-- None of the edits that are taken is refused. -/
theorem taken_taken (c : Class) (es : List Edit) : c.taken (c.taken es) = c.taken es := by
  induction es generalizing c with
  | nil => rfl
  | cons e es ih =>
      cases he : (c.edit e).2 with
      | error err => rw [taken_cons_of_error he, taken_nil]
      | ok u => rw [taken_cons_of_ok he, taken_cons_of_ok he, ih]

/-! ## One edit -/

/-- A refused edit that is its own only setting changes nothing. -/
theorem edit_of_error {e : Edit} (hsettings : e.settings = [e]) {err : Error}
    (h : (c.edit e).2 = .error err) : (c.edit e).1 = c := by
  have hsame : ∀ {x : Except Error Class}, (editTo c x).2 = .error err → (editTo c x).1 = c := by
    intro x hx
    cases x with
    | ok c' => cases hx
    | error _ => rfl
  cases e with
  | docstring | setAbstract | setDataclass | setExported | remark | imports => cases h
  | parent name => cases hsettings
  | pythonBase | typeScriptParent | phpParent | property => exact hsame h

/-- An edit leaves what those of its settings leave that stand in front of the first refused one,
and is refused if there is a refused one. -/
theorem edit_eq_run_taken (c : Class) (e : Edit) :
    (c.edit e).1 = c.run (c.taken e.settings) ∧
      ((c.edit e).2 = .ok () ↔ c.taken e.settings = e.settings) := by
  by_cases hsettings : e.settings = [e]
  · rw [hsettings]
    cases he : (c.edit e).2 with
    | ok u =>
        rw [taken_cons_of_ok he]
        exact ⟨rfl, iff_of_true rfl rfl⟩
    | error err =>
        rw [taken_cons_of_error he]
        exact ⟨edit_of_error hsettings he, iff_of_false nofun nofun⟩
  · cases e with
    | parent name =>
        cases hpython : c.addPythonBase name false with
        | error err => simp [edit, setParent, Edit.settings, taken, run, editTo, hpython]
        | ok c₁ =>
            cases htypescript : c₁.setTypeScriptParent name with
            | error err =>
                simp [edit, setParent, Edit.settings, taken, run, editTo, hpython, htypescript]
            | ok c₂ =>
                cases hphp : c₂.setPhpParent name with
                | error err =>
                    simp [edit, setParent, Edit.settings, taken, run, editTo, hpython, htypescript,
                      hphp]
                | ok c₃ =>
                    simp [edit, setParent, Edit.settings, taken, run, editTo, hpython, htypescript,
                      hphp]
    | _ => exact absurd rfl hsettings

/-- What is left of a common parent that some language refuses: nothing if that is Python, and else
all but the parent for PHP. -/
theorem edit_parent_of_error {name : String} {err : Error}
    (h : (c.edit (.parent name)).2 = .error err) :
    (c.edit (.parent name)).1 =
      if c.pythonBases ≠ [] ∧ c.forwardsArgs = true then c
      else { c with
        pythonBases := c.pythonBases ++ [name]
        forwardsArgs := false
        typeScriptParent := c.typeScriptParent.or (some name) } := by
  have hmixed : (!c.pythonBases.isEmpty && c.forwardsArgs != false) = true ↔
      c.pythonBases ≠ [] ∧ c.forwardsArgs = true := by simp
  rw [edit, setParent, addPythonBase] at h ⊢
  by_cases hpython : c.pythonBases ≠ [] ∧ c.forwardsArgs = true
  · rw [if_pos (hmixed.2 hpython), if_pos hpython]
  · rw [if_neg (mt hmixed.1 hpython)] at h ⊢
    rw [if_neg hpython]
    obtain ⟨_, _, _, _, _, _, _, typeScriptParent, phpParent, _, _, _⟩ := c
    cases typeScriptParent with
    | some parent => rfl
    | none =>
        cases phpParent with
        | some parent => rfl
        | none => cases h

/-- A refused edit leaves the class as it was, unless it is a common parent and Python takes it. -/
theorem edit_eq_self_iff {e : Edit} {err : Error} (h : (c.edit e).2 = .error err) :
    (c.edit e).1 = c ↔
      ∀ parent, e = .parent parent → c.pythonBases ≠ [] ∧ c.forwardsArgs = true := by
  by_cases hsettings : e.settings = [e]
  · refine iff_of_true (edit_of_error hsettings h) fun parent he => ?_
    rw [he] at hsettings
    cases hsettings
  · cases e with
    | parent name =>
        rw [edit_parent_of_error h]
        by_cases hpython : c.pythonBases ≠ [] ∧ c.forwardsArgs = true
        · rw [if_pos hpython]
          exact iff_of_true rfl fun _ _ => hpython
        · rw [if_neg hpython]
          refine iff_of_false (fun heq => ?_) fun hall => hpython (hall name rfl)
          have hbases : c.pythonBases ++ [name] = c.pythonBases := congrArg pythonBases heq
          exact absurd (List.append_right_eq_self.1 hbases) (List.cons_ne_nil _ _)
    | _ => exact absurd rfl hsettings

/-! ## Other languages -/

variable {t : Target}

/-- A checked setting does not show where the set class looks the same. -/
theorem seenBy_editTo {p : Prop} [Decidable p] {err : Error} {c' : Class}
    (h : c'.seenBy t = c.seenBy t) :
    (editTo c (if p then .error err else .ok c')).1.seenBy t = c.seenBy t := by
  split
  · rfl
  · exact h

/-- A language does not see the setting of a parent for another one. -/
theorem seenBy_edit {e : Edit} {t' : Target} (hlanguage : e.language? = some t') (ht : t' ≠ t) :
    (c.edit e).1.seenBy t = c.seenBy t := by
  cases e with
  | pythonBase | typeScriptParent | phpParent =>
      cases hlanguage
      refine seenBy_editTo ?_
      cases t <;> first | rfl | exact absurd rfl ht
  | _ => cases hlanguage

theorem seenBy_run {es : List Edit} (h : ∀ e ∈ es, ∃ t', e.language? = some t' ∧ t' ≠ t) :
    (c.run es).seenBy t = c.seenBy t := by
  induction es generalizing c with
  | nil => rfl
  | cons e es ih =>
      obtain ⟨t', hlanguage, ht⟩ := h e (List.mem_cons_self ..)
      exact (ih fun e' he' => h e' (List.mem_cons_of_mem _ he')).trans (seenBy_edit hlanguage ht)

/-- Classes that look the same to a language are written the same. -/
theorem layout_eq_of_seenBy {c c' : Class} (h : c.seenBy t = c'.seenBy t)
    (methods : List Function) :
    (Stmt.classDef c methods).layout t = (Stmt.classDef c' methods).layout t := by
  have hseen : (Stmt.classDef c methods).seenBy t = (Stmt.classDef c' methods).seenBy t := by
    rw [Stmt.seenBy, Stmt.seenBy, h]
  cases t with
  | python => exact (Stmt.toPython_seenBy _).symm.trans (hseen ▸ Stmt.toPython_seenBy _)
  | typescript => exact (Stmt.toTypeScript_seenBy _).symm.trans (hseen ▸ Stmt.toTypeScript_seenBy _)
  | php => exact (Stmt.toPhp_seenBy _).symm.trans (hseen ▸ Stmt.toPhp_seenBy _)

/-- A refused edit changes nothing that is written in a language for which no setting of it was
taken. -/
theorem layout_edit_of_error {e : Edit} {err : Error} (h : (c.edit e).2 = .error err)
    (hlanguage : ∀ s ∈ c.taken e.settings, s.language? ≠ some t) (methods : List Function) :
    (Stmt.classDef (c.edit e).1 methods).layout t = (Stmt.classDef c methods).layout t := by
  refine layout_eq_of_seenBy ?_ methods
  by_cases hsettings : e.settings = [e]
  · rw [edit_of_error hsettings h]
  · rw [(edit_eq_run_taken c e).1]
    refine seenBy_run fun s hs => ?_
    have hmem : s ∈ e.settings := (taken_isPrefix c e.settings).mem hs
    have hother := hlanguage s hs
    cases e with
    | parent name =>
        simp only [Edit.settings, List.mem_cons, List.not_mem_nil, or_false] at hmem
        rcases hmem with rfl | rfl | rfl
        · exact ⟨.python, rfl, fun ht => hother (ht ▸ rfl)⟩
        · exact ⟨.typescript, rfl, fun ht => hother (ht ▸ rfl)⟩
        · exact ⟨.php, rfl, fun ht => hother (ht ▸ rfl)⟩
    | _ => exact absurd rfl hsettings

/-! ## Edits one after the other -/

/-- **A class is built by the settings that are taken**, in their order; none of them is refused. -/
theorem run_eq_run_takenAll (c : Class) (es : List Edit) :
    c.run es = c.run (c.takenAll es) ∧ c.taken (c.takenAll es) = c.takenAll es := by
  induction es generalizing c with
  | nil => exact ⟨rfl, rfl⟩
  | cons e es ih =>
      have hedit := (edit_eq_run_taken c e).1
      rw [takenAll, run_append, ← hedit, taken_append (taken_taken c e.settings), ← hedit]
      exact ⟨(ih (c.edit e).1).1, congrArg _ (ih (c.edit e).1).2⟩

/-- **What a refused edit leaves** of a class that was built by any edits: what its settings up to
the refused one leave. That is the class as it was, unless a common parent is refused that Python
takes; then all languages but PHP have the parent, TypeScript only if it had none. What is written
in a language without a setting that was taken stays the same. -/
theorem edit_refused (name : String) (es : List Edit) (e : Edit) {err : Error}
    (h : (((new name).run es).edit e).2 = .error err) :
    let c := (new name).run es
    (c.edit e).1 = c.run (c.taken e.settings) ∧
    ((c.edit e).1 = c ↔
      ∀ parent, e = .parent parent → c.pythonBases ≠ [] ∧ c.forwardsArgs = true) ∧
    (∀ parent, e = .parent parent → (c.edit e).1 ≠ c → (c.edit e).1 = { c with
      pythonBases := c.pythonBases ++ [parent]
      forwardsArgs := false
      typeScriptParent := c.typeScriptParent.or (some parent) }) ∧
    ∀ t, (∀ s ∈ c.taken e.settings, s.language? ≠ some t) → ∀ methods,
      (Stmt.classDef (c.edit e).1 methods).layout t = (Stmt.classDef c methods).layout t := by
  intro c
  refine ⟨(edit_eq_run_taken c e).1, edit_eq_self_iff h, ?_, fun t => layout_edit_of_error h⟩
  rintro parent rfl hne
  have hleft := edit_parent_of_error h
  by_cases hpython : c.pythonBases ≠ [] ∧ c.forwardsArgs = true
  · rw [if_pos hpython] at hleft
    exact absurd hleft hne
  · rwa [if_neg hpython] at hleft

/-- A class with a TypeScript parent refuses a second one, but not its Python part; nothing changes
for TypeScript itself. -/
theorem edit_refused_secondParent :
    let c := (new "Pet").run [.typeScriptParent "Animal"]
    (c.edit (.parent "Mammal")).2 = .error (.invalid (.secondParent .typescript "Pet")) ∧
      c.taken (Edit.parent "Mammal").settings = [.pythonBase "Mammal" false] ∧
      (c.edit (.parent "Mammal")).1 = c.run [.pythonBase "Mammal" false] ∧
      ∀ methods, (Stmt.classDef (c.edit (.parent "Mammal")).1 methods).layout .typescript =
        (Stmt.classDef c methods).layout .typescript := by
  intro c
  have hrefused : (c.edit (.parent "Mammal")).2 =
      .error (.invalid (.secondParent .typescript "Pet")) := rfl
  have htaken : c.taken (Edit.parent "Mammal").settings = [.pythonBase "Mammal" false] := rfl
  obtain ⟨hleft, -, -, hlayout⟩ :=
    edit_refused "Pet" [.typeScriptParent "Animal"] (.parent "Mammal") hrefused
  refine ⟨hrefused, htaken, hleft, hlayout .typescript fun s hs => ?_⟩
  cases List.mem_singleton.1 (htaken ▸ hs)
  exact nofun

/-- A common parent that is refused is written in Python all the same. -/
theorem refused_parent_written :
    let c := (new "Pet").run [.typeScriptParent "Animal"]
    (c.edit (.parent "Mammal")).2 = .error (.invalid (.secondParent .typescript "Pet")) ∧
      (Stmt.classDef c []).toPython = .ok [.line "class Pet:", .nest [.line "pass"], .blank] ∧
      (Stmt.classDef (c.edit (.parent "Mammal")).1 []).toPython =
        .ok [.line "class Pet(Mammal):", .nest [.line "pass"], .blank] ∧
      (c.edit (.parent "Mammal")).1 ≠ c :=
  ⟨rfl, rfl, rfl, fun h => nomatch congrArg pythonBases h⟩

end Polyglot.Class
