import Polyglot.Proofs.Suites.Plain

/-!
# Suites of functions and classes

* `Signature.opens_pythonHead` : a suite below the head of a function.
* `Signature.exists_pythonSuite` : it has a line of code, whatever the function does.
* `Signature.opens_pythonOverloads` : the suites of overloads are filled.
* `Class.opens_pythonConstructor` : so is that of the constructor that follows from the properties.
-/

set_option autoImplicit false

namespace Polyglot

open Outcome

namespace Layout

variable {α : Type} {R : α → List Layout → Prop}

theorem opens_docString (texts : List String) : Opens R [] (docString texts) := by
  rw [docString]
  split
  · exact .nil
  · exact (Opens.line _).append ((Opens.map_line id texts).append (.line _))

/-- The quotes of a documentation string are code. -/
theorem docString_eq_nil_or_hasCodeLine (texts : List String) :
    docString texts = [] ∨ HasCodeLine (docString texts) := by
  rw [docString]
  split
  · exact .inl rfl
  · exact .inr (.cons (by decide) _)

end Layout

/-! ## Functions -/

theorem Param.exists_line {p : Param} {l : Layout} (h : p.toPython = .ok l) :
    ∃ text, l = .line text := by
  obtain ⟨ty, -, h⟩ := bind_eq_ok.1 h
  obtain ⟨default, -, h⟩ := bind_eq_ok.1 h
  cases pure_eq_ok.1 h
  exact ⟨_, rfl⟩

namespace Signature

variable {α : Type} {R : α → List Layout → Prop}

theorem opens_pythonDecorations (s : Signature) : Layout.Opens R [] s.pythonDecorations := by
  have hdecorators : Layout.Opens R [] (s.pythonDecorators.map fun d => .line ("@" ++ d)) :=
    .map_line _ _
  exact (Layout.Opens.line "").append ((hdecorators.append (.lineIf _ _)).append (.lineIf _ _))

theorem opens_pythonReceiver (s : Signature) : Layout.Opens R [] s.pythonReceiver :=
  .lineIf _ _

/-- The lines of a function down to the colon, with the lines of its parameters. -/
theorem exists_of_pythonHead {s : Signature} {head : List Layout} (hhead : s.pythonHead = .ok head) :
    ∃ positional keyword result, s.positional.mapM Param.toPython = .ok positional ∧
      s.keyword.mapM Param.toPython = .ok keyword ∧
      head = s.pythonDecorations ++
        [.line ((if s.isAsync then "async def " else "def ") ++
            (if s.isConstructor then "__init__" else s.name) ++ "("),
          .nest (s.pythonReceiver ++ positional ++
            (if s.keyword.isEmpty then [] else [.line "*,"]) ++ keyword),
          .line (") -> " ++ result ++ ":")] := by
  obtain ⟨positional, hpositional, hhead⟩ := bind_eq_ok.1 hhead
  obtain ⟨keyword, hkeyword, hhead⟩ := bind_eq_ok.1 hhead
  cases hresult : s.result with
  | none =>
      simp only [hresult] at hhead
      obtain ⟨result, -, hhead⟩ := bind_eq_ok.1 hhead
      exact ⟨positional, keyword, result, hpositional, hkeyword, (pure_eq_ok.1 hhead).symm⟩
  | some ty =>
      simp only [hresult] at hhead
      obtain ⟨result, -, hhead⟩ := bind_eq_ok.1 hhead
      exact ⟨positional, keyword, result, hpositional, hkeyword, (pure_eq_ok.1 hhead).symm⟩

/-- Decorations, the name, parameters, the result. -/
theorem exists_pythonHead {s : Signature} {head : List Layout} (hhead : s.pythonHead = .ok head) :
    ∃ name params result, Text.StartsWithCode name ∧ (∀ l ∈ params, ∃ text, l = .line text) ∧
      head = s.pythonDecorations ++ [.line (name ++ "("), .nest (s.pythonReceiver ++ params)] ++
        [.line (result ++ ":")] := by
  obtain ⟨positional, keyword, result, hpositional, hkeyword, rfl⟩ := exists_of_pythonHead hhead
  have hdef : Text.StartsWithCode (if s.isAsync then "async def " else "def ") := by
    split <;> decide
  refine ⟨(if s.isAsync then "async def " else "def ") ++
      (if s.isConstructor then "__init__" else s.name),
    positional ++ (if s.keyword.isEmpty then [] else [.line "*,"]) ++ keyword,
    ") -> " ++ result, hdef.append _, ?_, ?_⟩
  · intro l hl
    rcases List.mem_append.1 hl with hl | hl
    · rcases List.mem_append.1 hl with hl | hl
      · exact forall_mem_of_mapM_eq_ok hpositional (fun _ _ _ => Param.exists_line) l hl
      · split at hl
        · cases hl
        · exact ⟨_, List.mem_singleton.1 hl⟩
    · exact forall_mem_of_mapM_eq_ok hkeyword (fun _ _ _ => Param.exists_line) l hl
  · simp only [List.append_assoc, List.cons_append, List.nil_append]

/-- The head of a function has a line of code. -/
theorem hasCodeLine_pythonHead {s : Signature} {head : List Layout}
    (hhead : s.pythonHead = .ok head) : Layout.HasCodeLine head := by
  obtain ⟨name, params, result, hname, -, rfl⟩ := exists_pythonHead hhead
  refine .of_mem (hname.append "(") (List.mem_append_left _ (List.mem_append_right _ ?_))
  exact List.mem_cons_self ..

/-- The list of parameters is no suite; the suite of a function is what stands behind its head. -/
theorem opens_pythonHead {s : Signature} {head : List Layout} (hhead : s.pythonHead = .ok head)
    {a : α} {as : List α} {body : List Layout} (ha : R a body) (h : Layout.Opens R as body) :
    Layout.Opens R (a :: as) (head ++ [.nest body]) := by
  obtain ⟨name, params, result, -, hparams, rfl⟩ := exists_pythonHead hhead
  rw [List.append_assoc]
  have hgroup : Layout.Opens R []
      (s.pythonDecorations ++ [.line (name ++ "("), .nest (s.pythonReceiver ++ params)]) :=
    s.opens_pythonDecorations.append
      (.group (Layout.opensSuite_append_paren name) (s.opens_pythonReceiver.append (.lines hparams)))
  exact hgroup.append (.suite (Layout.opensSuite_append_colon result) ha h)

/-- There is a line of code in the suite of a function: one of its statements, or else the line
that stands for them. -/
theorem exists_pythonSuite (s : Signature) {hasCode : Bool} {inner : List Layout}
    (hinner : hasCode = true → Layout.HasCodeLine inner) {as : List α}
    (h : Layout.Opens R as inner) :
    ∃ body, s.pythonSuite hasCode inner = .nest body ∧ Layout.HasCodeLine body ∧
      Layout.Opens R as body := by
  have hdoc : Layout.Opens R as (Layout.docString s.docstring ++ inner) :=
    (Layout.opens_docString s.docstring).append h
  rw [pythonSuite]
  refine ⟨_, rfl, ?_⟩
  split
  · exact ⟨.concat (by decide) _, hdoc.append_nil (.line _)⟩
  · cases hasCode with
    | true =>
        rw [if_pos rfl, List.append_nil]
        exact ⟨Layout.hasCodeLine_append.2 (.inr (hinner rfl)), hdoc⟩
    | false =>
        exact ⟨.concat (by decide) _, hdoc.append_nil (.line _)⟩

/-- Every overload has a suite of its own, with a line that stands for statements. -/
theorem opens_pythonOverloads {s : Signature} {ls : List Layout}
    (h : s.pythonOverloads = .ok ls) :
    Layout.Opens Suite.IsFilled (s.overloads.map fun _ => .overload) ls := by
  obtain ⟨stubs, hstubs, h⟩ := bind_eq_ok.1 h
  cases pure_eq_ok.1 h
  rw [List.map_eq_flatMap]
  refine .flatMap (forall₂_of_mapM_eq_ok hstubs fun o _ stub hstub => ?_)
  obtain ⟨head, hhead, hstub⟩ := bind_eq_ok.1 hstub
  cases pure_eq_ok.1 hstub
  have hdots : true = true → Layout.HasCodeLine [.line "..."] := fun _ => .cons (by decide) []
  obtain ⟨body, hbody, hcode, hopens⟩ :=
    (s.variant o).exists_pythonSuite hdots (.line "...")
  rw [hbody]
  exact opens_pythonHead hhead hcode hopens

end Signature

/-! ## Classes -/

namespace Class

/-- The suites of the constructor that follows from the properties, if there is one. -/
def constructorSuites (c : Class) : List Suite :=
  match c.constructor .python with
  | .ok (some k) => .function :: k.body.flatMap Plain.suites
  | _ => []

theorem leadsWithCode_of_parentCall {c : Class} {p : Plain} (h : c.parentCall? .python = some p) :
    p.LeadsWithCode := by
  rw [parentCall?] at h
  split at h
  · cases h
  · cases h
    intro text htext
    cases htext
    split <;> decide

/-- What a constructor stores goes into properties of the object, so its statements begin with code
whatever the properties are called. -/
theorem leadsWithCode_of_constructor {c : Class} {k : Constructor}
    (h : c.constructor .python = .ok (some k)) : ∀ p ∈ k.body, p.LeadsWithCode := by
  rw [constructor] at h
  split at h
  · cases h
  · obtain ⟨params, -, h⟩ := bind_eq_ok.1 h
    cases pure_eq_ok.1 h
    intro p hp
    rcases List.mem_append.1 hp with hp | hp
    · rcases List.mem_append.1 hp with hp | hp
      · obtain ⟨q, -, rfl⟩ := List.mem_map.1 hp
        trivial
      · exact leadsWithCode_of_parentCall (Option.mem_toList.1 hp)
    · obtain ⟨q, -, hq⟩ := List.mem_filterMap.1 hp
      obtain ⟨e, -, rfl⟩ := Option.map_eq_some_iff.1 hq
      trivial

/-- The constructor of a class has a suite with a line of code, if the class has a constructor. -/
theorem opens_pythonConstructor {c : Class} {ls : List Layout}
    (h : c.pythonConstructor = .ok ls) :
    Layout.Opens Suite.IsFilled c.constructorSuites ls ∧ (ls = [] ∨ Layout.HasCodeLine ls) := by
  obtain ⟨k?, hk, h⟩ := bind_eq_ok.1 h
  cases k? with
  | none =>
      cases pure_eq_ok.1 h
      rw [constructorSuites, hk]
      exact ⟨.nil, .inl rfl⟩
  | some k =>
      obtain ⟨head, hhead, h⟩ := bind_eq_ok.1 h
      obtain ⟨inner, hinner, h⟩ := bind_eq_ok.1 h
      cases pure_eq_ok.1 h
      obtain ⟨hcode, hopens⟩ :=
        Plain.suites_toPythonAll (leadsWithCode_of_constructor hk) hinner
      obtain ⟨body, hbody, hline, hsuites⟩ := k.signature.exists_pythonSuite hcode.2 hopens
      rw [constructorSuites, hk, hbody]
      exact ⟨Signature.opens_pythonHead hhead hline hsuites,
        .inr (Layout.hasCodeLine_append.2 (.inl (Signature.hasCodeLine_pythonHead hhead)))⟩

/-- The declarations of properties are lines of code. -/
theorem opens_pythonProperties {c : Class}
    (hnames : ∀ p ∈ c.properties, Text.StartsWithCode p.name) {ls : List Layout}
    (h : c.pythonProperties = .ok ls) :
    Layout.Opens Suite.IsFilled [] ls ∧ (ls = [] ∨ Layout.HasCodeLine ls) := by
  have hlines : ∀ l ∈ ls, ∃ text, l = .line text ∧ Text.StartsWithCode text := by
    refine forall_mem_of_mapM_eq_ok h fun p hp l hl => ?_
    obtain ⟨ty, -, hl⟩ := bind_eq_ok.1 hl
    cases pure_eq_ok.1 hl
    exact ⟨_, rfl, (hnames p hp).append _ |>.append _⟩
  refine ⟨.lines fun l hl => ?_, ?_⟩
  · obtain ⟨text, rfl, -⟩ := hlines l hl
    exact ⟨text, rfl⟩
  · cases ls with
    | nil => exact .inl rfl
    | cons l ls =>
        obtain ⟨text, rfl, htext⟩ := hlines l (List.mem_cons_self ..)
        exact .inr (.cons htext _)

variable {α : Type} {R : α → List Layout → Prop}

theorem hasCodeLine_pythonHead (c : Class) : Layout.HasCodeLine c.pythonHead :=
  .concat (.append (.append (by decide) _) _) _

/-- The suite of a class is what stands behind its head. -/
theorem opens_pythonHead (c : Class) {a : α} {as : List α} {body : List Layout} (ha : R a body)
    (h : Layout.Opens R as body) : Layout.Opens R (a :: as) (c.pythonHead ++ [.nest body]) := by
  have hhead (bases : List String) : (Layout.line ("class " ++ c.name ++
      (if bases.isEmpty then ":" else "(" ++ ", ".intercalate bases ++ "):"))).opensSuite = true := by
    split
    · exact Layout.opensSuite_append_colon _
    · rw [← String.append_assoc]
      exact Layout.opensSuite_append _ (by decide)
  rw [pythonHead, List.append_assoc]
  exact (Layout.Opens.lineIf _ _).append (.suite (hhead _) ha h)

/-- There is a line of code among the members of a class, or else a line that stands for them;
remarks are none. -/
theorem opens_suite (c : Class) {as : List Suite} {members : List Layout}
    (hmembers : Layout.Opens Suite.IsFilled as members)
    (hcode : members = [] ∨ Layout.HasCodeLine members) (remarks : List String) :
    Layout.Opens Suite.IsFilled (.classDef :: as)
      (c.pythonHead ++ [.nest (members ++ remarks.map (fun r => .line ("# " ++ r)) ++
        if members.isEmpty then [.line "pass"] else [])] ++ [.blank]) := by
  have hremarks : Layout.Opens Suite.IsFilled as
      (members ++ remarks.map fun r => .line ("# " ++ r)) :=
    hmembers.append_nil (.map_line (fun r => "# " ++ r) remarks)
  refine (c.opens_pythonHead ?_ ?_).append_nil (.line "")
  · rcases hcode with rfl | hcode
    · exact .concat (by decide) _
    · exact Layout.hasCodeLine_append.2 (.inl (Layout.hasCodeLine_append.2 (.inl hcode)))
  · exact hremarks.append_nil (.lineIf _ _)

end Class

end Polyglot
