import Polyglot.Proofs.Stmt.Constructor
import Polyglot.Proofs.Suites.Count
import Polyglot.Proofs.Writer.Appends
import Polyglot.Writer.Python

/-!
# What is written in Python

The writers of statements write the layouts of the statements, and count the code in them.

* `Stmt.writes_python`, `Body.writes_python` : statements and bodies.
-/

set_option autoImplicit false

namespace Polyglot

open Outcome WriteM

/-! ## Statements without bodies -/

theorem Assignment.writes_python : ∀ a : Assignment, Writes a.writePython () a.toPython
  | .assign _ _ => .of_follows <| .lift fun _ _ => .lift fun _ _ => .lastLines (.line0 _) rfl
  | .declare _ _ _ => .of_follows <| .lift fun _ _ => .lift fun _ _ => .lastLines (.line0 _) rfl

/-- The pairs of a dict that may be left out, each behind its test. -/
theorem BuilderEntry.writes_pythonGuard (name : String) (e : BuilderEntry) :
    Writes (do
      line0 ("if " ++ (← (Expr.supplied e.value).pythonText) ++ ":")
      line1 (name ++ "[" ++ Text.Quoted.encode e.key ++ "] = " ++ (← e.value.pythonText)))
      () (e.pythonGuard name) :=
  .of_follows <| .lift fun _ _ => .lines (.line0 _) <| .lift fun _ _ => .lastLines (.line1 _) rfl

theorem DictBuilder.writes_python (b : DictBuilder) : Writes b.writePython () b.toPython :=
  .of_follows <| .lift fun _ _ => .lift fun _ _ => .lines (.line0 _) <|
    .lastOf (.forM (BuilderEntry.writes_pythonGuard b.name) _) fun _ _ => rfl

theorem Plain.writes_python (p : Plain) :
    Writes p.writePython (if p.hasCode then 1 else 0) p.toPython := by
  cases p with
  | blank => exact .of_follows (.lines .blankLine (.pure rfl))
  | comment text => exact .returning (.marked "# " text) _
  | expr e => exact .of_follows (.lift fun _ _ => .lines (.line0 _) (.pure rfl))
  | snippet codes =>
      obtain ⟨python, typescript, php⟩ := codes
      cases python with
      | missing => exact .of_follows (.throw _)
      | omitted => exact .of_follows (.pure rfl)
      | code text => exact .of_follows (.lines (.line0 _) (.pure rfl))
  | raise r => exact .of_follows (.lift fun _ _ => .lines (.line0 _) (.pure rfl))
  | ret value =>
      cases value with
      | «omit» => exact .of_follows (.lines (.line0 _) (.pure rfl))
      | _ => exact .of_follows (.lift fun _ _ => .lines (.line0 _) (.pure rfl))
  | assign a => exact .returning a.writes_python 1
  | append list value =>
      exact .of_follows (.lift fun _ _ => .lift fun _ _ => .lines (.line0 _) (.pure rfl))
  | build b => exact .returning b.writes_python 1
  | interface i => exact .of_follows (.throw _)

theorem Plain.toPythonAll_cons (p : Plain) (ps : List Plain) :
    toPythonAll (p :: ps) = (do
      let here ← p.toPython
      let rest ← toPythonAll ps
      return here ++ rest) := by
  simp only [toPythonAll, List.mapM_cons, bind_assoc, pure_bind, List.flatten_cons]

theorem Plain.writes_pythonAll : ∀ ps : List Plain,
    Writes (writePythonAll ps) (ps.countP hasCode) (toPythonAll ps)
  | [] => .of_follows (.pure rfl)
  | p :: ps => by
      rw [toPythonAll_cons]
      refine .of_follows <| .step p.writes_python fun _ _ =>
        .step (writes_pythonAll ps) fun _ _ => ?_
      rw [List.countP_cons, Nat.add_comm]
      exact .pure rfl

/-- A suite has `pass` in it if nothing in it counts as code. -/
theorem WriteM.writes_pythonSuite {block : WriteM Nat} {count : Nat}
    {x : Except Error (List Layout)} {hasCode : Bool} (hblock : Writes block count x)
    (hcode : hasCode = false ↔ count = 0) :
    Writes (pythonSuite block) () (do
      let inner ← x
      return [.pythonSuite hasCode inner]) := by
  have hsuite : Writes (do
      let count ← block
      when (count = 0) (line0 "pass")) () (do
      let inner ← x
      return if hasCode then inner else inner ++ [.line "pass"]) := by
    refine .of_follows (.step hblock fun inner _ => .lastLines (.when (.line0 _) _) ?_)
    cases hasCode <;> simp_all
  exact hsuite.nestedOf

/-! ## Functions -/

theorem Param.toPython_eq (p : Param) : p.toPython = (do
    let text ← p.pythonText
    return .line (text ++ ",")) := by
  simp only [toPython, pythonText, bind_assoc, pure_bind]

theorem Param.writes_python (p : Param) : Writes (do line0 ((← p.pythonText) ++ ",")) () (do
    let l ← p.toPython
    return [l]) := by
  rw [toPython_eq, bind_assoc]
  exact .of_follows <| .lift fun _ _ => .lastLines (.line0 _) rfl

namespace Signature

/-- The lines of the parameters. -/
def pythonParams (s : Signature) : Except Error (List Layout) := do
  let positional ← s.positional.mapM Param.toPython
  let keyword ← s.keyword.mapM Param.toPython
  return s.pythonReceiver ++ positional ++ (if s.keyword.isEmpty then [] else [.line "*,"]) ++ keyword

theorem writes_pythonParams (s : Signature) : Writes s.writePythonParams () s.pythonParams := by
  have hstar (before : List Layout) : Follows before (when (!s.keyword.isEmpty) do
      line0 "*,"
      s.keyword.forM fun p => do line0 ((← p.pythonText) ++ ",")) () (do
      let keyword ← s.keyword.mapM Param.toPython
      return before ++ (if s.keyword.isEmpty then [] else [.line "*,"]) ++ keyword) := by
    cases s.keyword with
    | nil => exact .pure (by simp)
    | cons p ps =>
        exact .lines (.line0 _) <| .last (.forM_line Param.writes_python _) fun _ _ => rfl
  exact .of_follows <| .lines (.when (.line0 _) _) <|
    .step (.forM_line Param.writes_python _) fun positional _ => hstar _

theorem pythonHead_eq (s : Signature) : s.pythonHead = (do
    let params ← s.pythonParams
    let result ← s.pythonResult
    return s.pythonDecorations ++
      [.line ((if s.isAsync then "async def " else "def ") ++
        (if s.isConstructor then "__init__" else s.name) ++ "("), .nest params,
        .line (") -> " ++ result ++ ":")]) := by
  rw [pythonHead, pythonParams, pythonResult]
  cases s.result <;> simp only [bind_assoc, pure_bind]

theorem writes_pythonBelow (s : Signature) {block : WriteM Nat} {count : Nat}
    {x : Except Error (List Layout)} {hasCode : Bool} (hblock : Writes block count x)
    (hcode : hasCode = false ↔ count = 0) :
    Writes (s.writePythonBelow block) 1 (do
      let head ← s.pythonHead
      let inner ← x
      return head ++ [s.pythonSuite hasCode inner]) := by
  have hsuite : Writes (do
      docString s.docstring
      let count ← block
      if s.isAbstract then
        line0 "..."
      else
        when (count = 0) (line0 "pass")) () (do
      let inner ← x
      return Layout.docString s.docstring ++ inner ++
        (if s.isAbstract then [.line "..."] else if hasCode then [] else [.line "pass"])) := by
    refine .of_follows (.lines (.docString _) (.step hblock fun inner _ => ?_))
    cases s.isAbstract with
    | true => exact .lastLines (.line0 _) rfl
    | false =>
        refine .lastLines (.when (.line0 _) _) ?_
        cases hasCode <;> simp_all
  rw [pythonHead_eq]
  simp only [bind_assoc, pure_bind]
  refine .of_follows <| .lines .blankLine <| .lines (.forM_line0 _ _) <|
    .lines (.when (.line0 _) _) <| .lines (.when (.line0 _) _) <| .lines (.line0 _) <|
    .nested s.writes_pythonParams fun params _ => .lift fun result _ => .lines (.line0 _) <|
    .nestedOf hsuite fun inner _ => .pure ?_
  simp only [pythonDecorations, pythonSuite, List.nil_append, List.cons_append, List.append_assoc]

/-- Above a function stand its overloads. -/
theorem writes_python (s : Signature) (isEmpty : Bool) {block : WriteM Nat} {count : Nat}
    {x : Except Error (List Layout)} {hasCode : Bool} (hblock : Writes block count x)
    (hcode : hasCode = false ↔ count = 0) :
    Writes (s.writePython isEmpty block) 1 (do
      s.checkBody isEmpty
      let overloads ← s.pythonOverloads
      let head ← s.pythonHead
      let inner ← x
      return overloads ++ head ++ [s.pythonSuite hasCode inner]) := by
  have hstub (o : Overload) : Writes (do
      let _ ← (s.variant o).writePythonBelow do
        line0 "..."
        return 1) () (do
      let head ← (s.variant o).pythonHead
      return head ++ [(s.variant o).pythonSuite true [.line "..."]]) := by
    have hellipsis : Writes (do
        line0 "..."
        return 1) 1 (.ok [.line "..."]) := .returning (.line0 _) 1
    exact .returning ((s.variant o).writes_pythonBelow hellipsis (by simp)) ()
  rw [pythonOverloads, bind_assoc]
  have hbelow := s.writes_pythonBelow hblock hcode
  refine .of_follows <| .lift fun _ _ => .stepOf (.forM hstub _) fun stubs _ => ?_
  have hlines : (do
      let head ← s.pythonHead
      let inner ← x
      return stubs.flatten ++ head ++ [s.pythonSuite hasCode inner]) = (do
      let below ← (do
        let head ← s.pythonHead
        let inner ← x
        return head ++ [s.pythonSuite hasCode inner] : Except Error (List Layout))
      return stubs.flatten ++ below) := by
    simp only [bind_assoc, pure_bind, List.append_assoc]
  rw [pure_bind, hlines]
  exact .last hbelow fun _ _ => rfl

end Signature

/-! ## Classes -/

namespace Class

theorem writes_pythonHead (c : Class) : Writes c.writePythonHead () (.ok c.pythonHead) :=
  .of_follows (.lines (.when (.line0 _) _) (.lastLines (.line0 _) rfl))

/-- The lines of the members of a class above its methods. -/
def pythonMembers (c : Class) : Except Error (List Layout) := do
  let properties ← c.pythonProperties
  let constructor ← c.pythonConstructor
  return Layout.docString c.docstring ++ properties ++ constructor

/-- A constructor is not abstract and has no overloads. -/
theorem writes_pythonConstructor {c : Class} {k : Constructor}
    (hk : c.constructor .python = .ok (some k)) :
    Writes (k.signature.writePython k.body.isEmpty (Plain.writePythonAll k.body)) 1 k.toPython := by
  have hcode : k.body.any Plain.hasCode = false ↔ k.body.countP Plain.hasCode = 0 := by
    rw [List.countP_eq_zero, List.any_eq_false]
  have hoverloads : k.signature.pythonOverloads = .ok [] := by
    rw [Signature.pythonOverloads, overloads_of_constructor hk]
    rfl
  have h := k.signature.writes_python k.body.isEmpty (Plain.writes_pythonAll k.body) hcode
  rw [checkBody_of_constructor hk, hoverloads] at h
  exact h

theorem writes_pythonMembers (c : Class) :
    Writes c.writePythonMembers (!c.docstring.isEmpty || !c.properties.isEmpty) c.pythonMembers := by
  have hproperty (p : Property) : Writes (do line0 (p.name ++ ": " ++ (← p.ty.pythonText))) () (do
      let l ← (do
        let ty ← p.ty.pythonText
        return .line (p.name ++ ": " ++ ty) : Except Error Layout)
      return [l]) := by
    rw [bind_assoc]
    exact .of_follows <| .lift fun _ _ => .lastLines (.line0 _) rfl
  refine .of_follows <| .lines (.docString _) <| .step (.forM_line hproperty _) fun _ _ => ?_
  rw [pythonConstructor, bind_assoc]
  refine .lift fun k hk => ?_
  cases k with
  | none => exact .pure (by simp)
  | some k =>
      have hflag : (!c.docstring.isEmpty || !c.properties.isEmpty) = true := by
        simp [properties_ne_nil_of_constructor hk]
      rw [hflag]
      exact .step (writes_pythonConstructor hk) fun _ _ => .pure rfl

/-- Where there are no properties, there is no constructor. -/
theorem pythonConstructor_of_nil {c : Class} (h : c.properties = []) :
    c.pythonConstructor = .ok [] := by
  rw [pythonConstructor, constructor, initargs, h]
  rfl

theorem pythonProperties_eq_nil_iff {c : Class} {ls : List Layout}
    (h : c.pythonProperties = .ok ls) : ls = [] ↔ c.properties = [] := by
  have hlength := (forall₂_of_mapM_eq_ok (P := fun _ _ => True) h fun _ _ _ _ => trivial).length_eq
  rw [← List.length_eq_zero_iff, ← hlength, List.length_eq_zero_iff]

/-- Every method has lines. -/
theorem pythonMethods_eq_nil_iff {fs : List Function} {lss : List (List Layout)}
    (h : Function.toPythonAll fs = .ok lss) : lss.flatten = [] ↔ fs = [] := by
  cases fs with
  | nil =>
      cases h
      exact iff_of_true rfl rfl
  | cons f fs =>
      obtain ⟨signature, body⟩ := f
      obtain ⟨here, hhere, h⟩ := bind_eq_ok.1 h
      obtain ⟨rest, -, h⟩ := bind_eq_ok.1 h
      cases pure_eq_ok.1 h
      obtain ⟨_, -, hhere⟩ := bind_eq_ok.1 hhere
      obtain ⟨overloads, -, hhere⟩ := bind_eq_ok.1 hhere
      obtain ⟨head, -, hhere⟩ := bind_eq_ok.1 hhere
      obtain ⟨inner, -, hhere⟩ := bind_eq_ok.1 hhere
      cases pure_eq_ok.1 hhere
      simp

/-- A class has members unless it has neither documentation nor properties nor methods. -/
theorem pythonMembers_eq_nil_iff {c : Class} {fs : List Function} {above : List Layout}
    {ms : List (List Layout)} (habove : c.pythonMembers = .ok above)
    (hms : Function.toPythonAll fs = .ok ms) :
    above ++ ms.flatten = [] ↔ (c.docstring = [] ∧ c.properties = []) ∧ fs = [] := by
  obtain ⟨properties, hproperties, habove⟩ := bind_eq_ok.1 habove
  obtain ⟨ctor, hctor, habove⟩ := bind_eq_ok.1 habove
  cases pure_eq_ok.1 habove
  have hdocstring : Layout.docString c.docstring = [] ↔ c.docstring = [] := by
    cases c.docstring <;> simp [Layout.docString]
  have hnone (h : c.properties = []) : ctor = [] := by
    rw [pythonConstructor_of_nil h] at hctor
    exact (Except.ok.inj hctor).symm
  rw [List.append_eq_nil_iff, List.append_eq_nil_iff, List.append_eq_nil_iff, hdocstring,
    pythonProperties_eq_nil_iff hproperties, pythonMethods_eq_nil_iff hms]
  tauto

/-- A class is written with the methods that are written inside of it. -/
theorem writes_python (c : Class) {methods : List Function} (hmethods : ∀ hasBody,
    Writes (Function.writePythonAll hasBody methods) (hasBody || !methods.isEmpty) (do
      let lss ← Function.toPythonAll methods
      return lss.flatten)) :
    Writes (Stmt.writePython (.classDef c methods)) 1 (Stmt.toPython (.classDef c methods)) := by
  have hbody : Writes (do
      let above ← c.writePythonMembers
      let hasBody ← Function.writePythonAll above methods
      c.remarks.forM fun r => line0 ("# " ++ r)
      when (!hasBody) (line0 "pass")) () (do
      let above ← c.pythonMembers
      let ms ← Function.toPythonAll methods
      return above ++ ms.flatten ++ (c.remarks.map fun r => .line ("# " ++ r)) ++
        (if (above ++ ms.flatten).isEmpty then [.line "pass"] else [])) := by
    refine .of_follows <| .step c.writes_pythonMembers fun above habove =>
      .stepOf (hmethods _) fun ms hms => .lines (.forM_line0 _ _) <|
      .lastLines (.when (.line0 _) _) ?_
    have hempty : (above ++ ms.flatten).isEmpty =
        !(!c.docstring.isEmpty || !c.properties.isEmpty || !methods.isEmpty) := by
      rw [Bool.eq_iff_iff, List.isEmpty_iff, pythonMembers_eq_nil_iff habove hms]
      simp
    rw [hempty]
    rfl
  have hlines : Stmt.toPython (.classDef c methods) = (do
      let inner ← (do
        let above ← c.pythonMembers
        let ms ← Function.toPythonAll methods
        return above ++ ms.flatten ++ (c.remarks.map fun r => .line ("# " ++ r)) ++
          (if (above ++ ms.flatten).isEmpty then [.line "pass"] else []) :
            Except Error (List Layout))
      return c.pythonHead ++ [.nest inner, .blank]) := by
    simp only [Stmt.toPython, pythonMembers, bind_assoc, pure_bind]
  rw [hlines]
  exact .of_follows <| .lines c.writes_pythonHead <| .nested hbody fun _ _ =>
    .lines .blankLine <| .pure (by simp)

end Class

/-! ## The tree -/

mutual

/-- The statements of a body are written, and counted. -/
theorem Body.writes_python : ∀ b : Body, Writes b.writePython b.codeCount b.toPython
  | ⟨_, stmts⟩ => Stmt.writes_pythonAll stmts

theorem Function.writes_python : ∀ f : Function, Writes f.writePython 1 f.toPython
  | ⟨signature, body⟩ =>
    signature.writes_python body.stmts.isEmpty body.writes_python body.hasCode_eq_false_iff

theorem Function.writes_pythonAll : ∀ (hasBody : Bool) (fs : List Function),
    Writes (Function.writePythonAll hasBody fs) (hasBody || !fs.isEmpty) (do
      let lss ← Function.toPythonAll fs
      return lss.flatten)
  | hasBody, [] => by
      rw [List.isEmpty_nil, Bool.not_true, Bool.or_false]
      exact .of_follows (.pure rfl)
  | hasBody, f :: fs => by
      rw [List.isEmpty_cons, Bool.not_false, Bool.or_true, Function.toPythonAll]
      simp only [bind_assoc, pure_bind]
      exact .of_follows <| .step f.writes_python fun _ _ =>
        .lastOf (Function.writes_pythonAll true fs) fun _ _ => rfl

theorem Branches.writes_python : ∀ bs : Branches, Writes bs.writePython () bs.toPython
  | .done => .of_follows (.pure rfl)
  | .otherwise body => .of_follows <| .lines (.line0 _) <|
      .lastOf (writes_pythonSuite body.writes_python body.hasCode_eq_false_iff) fun _ _ => rfl
  | .elseIf _ body rest => .of_follows <| .lift fun _ _ => .lines (.line0 _) <|
      .stepOf (writes_pythonSuite body.writes_python body.hasCode_eq_false_iff) fun _ _ =>
      .last rest.writes_python fun _ _ => rfl

theorem Handlers.writes_python : ∀ hs : Handlers, Writes hs.writePython () hs.toPython
  | .done => .of_follows (.pure rfl)
  | .cleanup body => .of_follows <| .lines (.line0 _) <|
      .lastOf (writes_pythonSuite body.writes_python body.hasCode_eq_false_iff) fun _ _ => rfl
  | .handler _ body rest => .of_follows <| .lines (.line0 _) <|
      .stepOf (writes_pythonSuite body.writes_python body.hasCode_eq_false_iff) fun _ _ =>
      .last rest.writes_python fun _ _ => rfl

/-- A statement is written, and counted. -/
theorem Stmt.writes_python : ∀ s : Stmt, Writes s.writePython s.codeCount s.toPython
  | .plain p => p.writes_python
  | .conditional _ body branches => .of_follows <| .lift fun _ _ => .lines (.line0 _) <|
      .stepOf (writes_pythonSuite body.writes_python body.hasCode_eq_false_iff) fun _ _ =>
      .step branches.writes_python fun _ _ => .lines .blankLine <| .pure rfl
  | .forEach _ _ body => .of_follows <| .lift fun _ _ => .lines (.line0 _) <|
      .stepOf (writes_pythonSuite body.writes_python body.hasCode_eq_false_iff) fun _ _ =>
      .lines .blankLine <| .pure rfl
  | .forEntries _ _ _ body => .of_follows <| .lift fun _ _ => .lines (.line0 _) <|
      .stepOf (writes_pythonSuite body.writes_python body.hasCode_eq_false_iff) fun _ _ =>
      .lines .blankLine <| .pure rfl
  | .attempt body handlers => .of_follows <| .lift fun _ _ => .lines (.line0 _) <|
      .stepOf (writes_pythonSuite body.writes_python body.hasCode_eq_false_iff) fun _ _ =>
      .step handlers.writes_python fun _ _ => .pure rfl
  | .function f => f.writes_python
  | .classDef c methods => c.writes_python fun hasBody => Function.writes_pythonAll hasBody methods
  | .block body => body.writes_python

theorem Stmt.writes_pythonAll : ∀ ss : List Stmt,
    Writes (Stmt.writePythonAll ss) (Stmt.codeCountAll ss) (Stmt.toPythonAll ss)
  | [] => .of_follows (.pure rfl)
  | s :: ss => .of_follows <| .step s.writes_python fun _ _ =>
      .step (Stmt.writes_pythonAll ss) fun _ _ => .pure rfl

end

end Polyglot
